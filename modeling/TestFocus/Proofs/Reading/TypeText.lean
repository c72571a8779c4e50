import TestFocus.Proofs.Reading.Layout
import TestFocus.Reader.Type

namespace TestFocus

open Lexer Text Piece Cursor

namespace Grammar

-- What follows a sigil: name characters, or anything between quotes.
inductive Name where
  | bare (chars : List Char) (nonempty : chars ≠ []) (chars_name : chars.all isNameChar)
  | quoted (body : List Char) (body_closed : '"' ∉ body)

-- The name with its sigil.
def Name.after (sigil : Char) : Name → String
  | bare chars _ _ => String.ofList (sigil :: chars)
  | quoted body _ => String.ofList (sigil :: '"' :: (body ++ ['"']))

-- A text between quotes.
structure Quoted where
  body : List Char
  closed : '"' ∉ body

abbrev Quoted.piece (q : Quoted) : Piece :=
  quoted q.body

inductive Primitive where
  | void | half | bfloat | float | double | fp128 | x86fp80 | ppcfp128 | x86mmx | x86amx | label
  | metadata | token | opaqueType
deriving DecidableEq

def Primitive.word : Primitive → String
  | void => "void"
  | half => "half"
  | bfloat => "bfloat"
  | float => "float"
  | double => "double"
  | fp128 => "fp128"
  | x86fp80 => "x86_fp80"
  | ppcfp128 => "ppc_fp128"
  | x86mmx => "x86_mmx"
  | x86amx => "x86_amx"
  | label => "label"
  | metadata => "metadata"
  | token => "token"
  | opaqueType => "opaque"

inductive Ty where
  | integer (bits : Nat)
  | primitive (p : Primitive)
  | pointer (addressSpace : Option Nat)
  | named (name : Name)
  | array (length : Nat) (element : Ty)
  | vector (isScalable : Bool) (length : Nat) (element : Ty)
  | record (isPacked : Bool) (fields : List Ty)
  | extension (name : Quoted) (types : List Ty) (numbers : List Nat)
  | pointerTo (target : Ty) (addressSpace : Option Nat)
  | function (result : Ty) (parameters : List Ty) (isVariadic : Bool)

-- `addrspace(N)`
def addressSpace (n : Nat) : List Piece :=
  [word "addrspace", punct "(", word (n.repr), punct ")"]

-- What stands behind the parameters when more may follow.
def ellipsis (isVariadic : Bool) : List (List Piece) :=
  if isVariadic then [[word "..."]] else []

-- The parts with commas between them, and with room around them if there are any.
def padded (parts : List (List Piece)) : List Piece :=
  if parts.isEmpty then [] else space :: (commas parts ++ [space])

-- `{}` or `{ a, b, c }`
def braced (parts : List (List Piece)) : List Piece :=
  punct "\x7b" :: (padded parts ++ [punct "\x7d"])

namespace Ty

mutual
def pieces : Ty → List Piece
  | integer bits => [word ("i" ++ bits.repr)]
  | primitive p => [word p.word]
  | pointer none => [word "ptr"]
  | pointer (some n) => word "ptr" :: space :: addressSpace n
  | named name => [word (name.after '%')]
  | array length element =>
    punct "[" :: (spaced [length.repr, "x"] ++ (element.pieces ++ [punct "]"]))
  | vector isScalable length element =>
    punct "<" :: (spaced ((if isScalable then ["vscale", "x"] else []) ++ [length.repr, "x"]) ++
      (element.pieces ++ [punct ">"]))
  | record false fields => braced (parts fields)
  | record true fields => punct "<" :: (braced (parts fields) ++ [punct ">"])
  | extension name types numbers =>
    word "target" :: punct "(" ::
      (commas ([name.piece] :: (parts types ++ numbers.map fun n => [word n.repr])) ++ [punct ")"])
  | pointerTo target none => target.pieces ++ [punct "*"]
  | pointerTo target (some n) => target.pieces ++ (space :: (addressSpace n ++ [punct "*"]))
  | function result parameters isVariadic =>
    result.pieces ++ (space :: punct "(" ::
      (commas (parts parameters ++ ellipsis isVariadic) ++ [punct ")"]))

def parts : List Ty → List (List Piece)
  | [] => []
  | t :: ts => t.pieces :: parts ts
end

-- A type as it is written.
def print (t : Ty) : String :=
  Piece.print t.pieces

@[simp]
theorem parts_eq (ts : List Ty) : parts ts = ts.map pieces := by
  induction ts with
  | nil => rfl
  | cons t ts ih => simp [parts, ih]

-- What holds of a type when it holds of the types in it holds of every type.
@[induction_eliminator]
theorem induct {motive : Ty → Prop} (integer : ∀ bits, motive (integer bits))
    (primitive : ∀ p, motive (primitive p)) (pointer : ∀ space, motive (pointer space))
    (named : ∀ name, motive (named name)) (array : ∀ n t, motive t → motive (array n t))
    (vector : ∀ isScalable n t, motive t → motive (vector isScalable n t))
    (record : ∀ isPacked fields, (∀ t ∈ fields, motive t) → motive (record isPacked fields))
    (extension : ∀ name types numbers, (∀ t ∈ types, motive t) →
      motive (extension name types numbers))
    (pointerTo : ∀ t space, motive t → motive (pointerTo t space))
    (function : ∀ result parameters isVariadic, motive result → (∀ t ∈ parameters, motive t) →
      motive (function result parameters isVariadic)) (t : Ty) : motive t :=
  @Ty.rec motive (fun ts => ∀ t ∈ ts, motive t) integer primitive pointer named array vector record
    extension pointerTo function (by simp) (fun t ts ht hts => by simpa using ⟨ht, hts⟩) t

end Ty

namespace Name

theorem toList_after (sigil : Char) (name : Name) :
    ∃ c cs, (name.after sigil).toList = sigil :: c :: cs := by
  cases name with
  | bare chars nonempty chars_name =>
    obtain ⟨c, cs, rfl⟩ := List.exists_cons_of_ne_nil nonempty
    exact ⟨c, cs, by rw [Name.after, String.toList_ofList]⟩
  | quoted body body_closed => exact ⟨_, _, by rw [Name.after, String.toList_ofList]⟩

theorem isWord_after {sigil : Char} (hsigil : isSigil sigil = true) (name : Name) :
    IsWord (name.after sigil) := by
  cases name with
  | bare chars nonempty chars_name =>
    obtain ⟨c, cs, rfl⟩ := List.exists_cons_of_ne_nil nonempty
    refine isWord_ofList ?_
    rw [isPlain, chars_name, hsigil]
    rfl
  | quoted body body_closed =>
    exact isWord_quoted (by rw [hsigil]; rfl) body_closed

@[simp]
theorem isWord_local (name : Name) : IsWord (name.after '%') :=
  isWord_after rfl name

end Name

@[simp]
theorem isWord_typeWords :
    IsWord "ptr" ∧ IsWord "addrspace" ∧ IsWord "x" ∧ IsWord "vscale" ∧ IsWord "..." ∧
      IsWord "target" := by
  refine ⟨?_, ?_, ?_, ?_, ?_, ?_⟩ <;> exact isWord_ofList rfl

theorem balanced_addressSpace (n : Nat) : Balanced (addressSpace n) :=
  balanced_word _ (.group rfl (balanced_word _ .nil) .nil)

@[simp]
theorem apart_braced {parts : List (List Piece)} (hparts : ∀ ps ∈ parts, Apart ps) :
    Apart (braced parts) := by
  unfold braced padded
  split <;> simp [apart_commas_append hparts]

theorem balanced_padded {parts : List (List Piece)} (hparts : ∀ ps ∈ parts, Balanced ps) :
    Balanced (padded parts) := by
  unfold padded
  split
  · exact .nil
  · exact .gap " " ((balanced_commas hparts).append (.gap " " .nil))

theorem balanced_braced {parts : List (List Piece)} (hparts : ∀ ps ∈ parts, Balanced ps) :
    Balanced (braced parts) :=
  .group rfl (balanced_padded hparts) .nil

theorem forall_mem_ellipsis {P : List Piece → Prop} (parts : List (List Piece))
    (isVariadic : Bool) (hparts : ∀ ps ∈ parts, P ps) (hellipsis : P [word "..."]) :
    ∀ ps ∈ parts ++ ellipsis isVariadic, P ps := by
  cases isVariadic with
  | false => simpa [ellipsis] using hparts
  | true =>
    intro ps hps
    rcases List.mem_append.mp hps with hps | hps
    · exact hparts ps hps
    · rwa [List.mem_singleton.mp hps]

theorem forall_mem_extension {P : List Piece → Prop} (name : Quoted) (parts : List (List Piece))
    (numbers : List Nat) (hname : P [name.piece]) (hparts : ∀ ps ∈ parts, P ps)
    (hnumber : ∀ n : Nat, P [word n.repr]) :
    ∀ ps ∈ [name.piece] :: (parts ++ numbers.map fun n => [word n.repr]), P ps := by
  intro ps hps
  simp only [List.mem_cons, List.mem_append, List.mem_map] at hps
  rcases hps with rfl | hps | ⟨n, -, rfl⟩
  · exact hname
  · exact hparts ps hps
  · exact hnumber n

namespace Ty

@[simp]
theorem isWord_integer (bits : Nat) : IsWord ("i" ++ bits.repr) :=
  isWord_numbered rfl bits

@[simp]
theorem isWord_primitive (p : Primitive) : IsWord p.word := by
  cases p <;> exact isWord_ofList rfl

@[simp]
theorem apart_pieces (t : Ty) : Apart t.pieces := by
  induction t with
  | integer bits => simp [pieces]
  | primitive p => simp [pieces]
  | pointer space => cases space <;> simp [pieces, addressSpace]
  | named name => simp [pieces]
  | array n t ih => simp [pieces, ih]
  | vector isScalable n t ih => cases isScalable <;> simp [pieces, ih]
  | record isPacked fields ih =>
    have hparts : ∀ ps ∈ fields.map pieces, Apart ps := by simpa using ih
    cases isPacked <;> simp [pieces, apart_braced hparts]
  | extension name types numbers ih =>
    have hparts := forall_mem_extension (P := Apart) name (types.map pieces) numbers
      (by simp [name.closed]) (by simpa using ih) (by simp)
    simp only [pieces, parts_eq]
    simp [-commas_cons, apart_commas_append hparts]
  | pointerTo t space ih => cases space <;> simp [pieces, ih, addressSpace]
  | function result parameters isVariadic ihr ihp =>
    have hparts := forall_mem_ellipsis (P := Apart) (parameters.map pieces) isVariadic
      (by simpa using ihp) (by simp)
    simp [pieces, ihr, apart_commas_append hparts]

theorem balanced_star : Balanced [punct "*"] :=
  .token (fun _ => by decide) .nil

theorem balanced_pieces (t : Ty) : Balanced t.pieces := by
  induction t with
  | integer bits => exact balanced_word _ .nil
  | primitive p => exact balanced_word _ .nil
  | pointer space =>
    cases space with
    | none => exact balanced_word _ .nil
    | some n => exact balanced_word _ (.gap " " (balanced_addressSpace n))
  | named name => exact balanced_word _ .nil
  | array n t ih =>
    rw [pieces, ← List.append_assoc]
    exact .group rfl (balanced_spaced_append ih) .nil
  | vector isScalable n t ih =>
    rw [pieces, ← List.append_assoc]
    exact .group rfl (balanced_spaced_append ih) .nil
  | record isPacked fields ih =>
    have hparts : Balanced (braced (parts fields)) := balanced_braced (by simpa using ih)
    cases isPacked with
    | false => exact hparts
    | true => exact .group rfl hparts .nil
  | extension name types numbers ih =>
    have hparts := forall_mem_extension (P := Balanced) name (parts types) numbers
      (.token (by simp) .nil) (by simpa using ih) (fun n => balanced_word n.repr .nil)
    exact balanced_word _ (.group rfl (balanced_commas hparts) .nil)
  | pointerTo t space ih =>
    cases space with
    | none => exact ih.append balanced_star
    | some n => exact ih.append (.gap " " ((balanced_addressSpace n).append balanced_star))
  | function result parameters isVariadic ihr ihp =>
    have hparts := forall_mem_ellipsis (P := Balanced) (parts parameters) isVariadic
      (by simpa using ihp) (balanced_word _ .nil)
    exact ihr.append (.gap " " (.group rfl (balanced_commas hparts) .nil))

theorem solid_pieces (t : Ty) : Solid t.pieces := by
  have hgroup (opening closing : String) (ps : List Piece) :
      Solid (punct opening :: (ps ++ [punct closing])) :=
    (solid_token .punct opening).append (solid_token .punct closing) ps
  induction t with
  | integer bits => exact solid_token _ _
  | primitive p => exact solid_token _ _
  | pointer space =>
    cases space with
    | none => exact solid_token _ _
    | some n =>
      exact (solid_token .word "ptr").append (solid_token .punct ")")
        [space, word "addrspace", punct "(", word n.repr]
  | named name => exact solid_token _ _
  | array n t ih =>
    rw [pieces, ← List.append_assoc]
    exact hgroup _ _ _
  | vector isScalable n t ih =>
    rw [pieces, ← List.append_assoc]
    exact hgroup _ _ _
  | record isPacked fields ih => cases isPacked <;> exact hgroup _ _ _
  | extension name types numbers ih =>
    exact (solid_token .word "target").append (hgroup "(" ")" _) []
  | pointerTo t space ih =>
    cases space with
    | none => exact ih.append (solid_token .punct "*") []
    | some n => exact ih.append (solid_token .punct "*") (space :: addressSpace n)
  | function result parameters isVariadic ihr ihp =>
    exact ihr.append (hgroup "(" ")" _) [space]

-- Can a type begin with the token?
def opens (s : String) : Bool :=
  Keyword.isTypeWord s || ["[", "\x7b", "<"].contains s

theorem isTypeWord_integer (bits : Nat) : Keyword.isTypeWord ("i" ++ bits.repr) = true := by
  obtain ⟨d, ds, hds, hall⟩ := digits_repr bits
  have hlist : ("i" ++ bits.repr).toList = 'i' :: d :: ds := by simp [hds]
  simp only [Keyword.isTypeWord, Keyword.isIntegerType, hlist, hall, Bool.or_true, Bool.true_or]

theorem isTypeWord_local (name : Name) : Keyword.isTypeWord (name.after '%') = true := by
  obtain ⟨c, cs, hlist⟩ := name.toList_after '%'
  simp [Keyword.isTypeWord, Keyword.isLocalName, hlist]

theorem isTypeWord_primitive (p : Primitive) : Keyword.isTypeWord p.word = true := by
  cases p <;> decide

theorem exists_opening (t : Ty) : ∃ s ss, texts t.pieces = s :: ss ∧ opens s = true := by
  have hword {s : String} (hs : Keyword.isTypeWord s = true) : opens s = true := by simp [opens, hs]
  have hbracket : opens "[" = true ∧ opens "\x7b" = true ∧ opens "<" = true := by decide
  induction t with
  | integer bits => exact ⟨_, _, rfl, hword (isTypeWord_integer bits)⟩
  | primitive p => exact ⟨_, _, rfl, hword (isTypeWord_primitive p)⟩
  | pointer space => cases space <;> exact ⟨_, _, rfl, by decide⟩
  | named name => exact ⟨_, _, rfl, hword (isTypeWord_local name)⟩
  | array n t ih => exact ⟨_, _, rfl, hbracket.1⟩
  | vector isScalable n t ih => exact ⟨_, _, rfl, hbracket.2.2⟩
  | record isPacked fields ih =>
    cases isPacked with
    | false => exact ⟨_, _, rfl, hbracket.2.1⟩
    | true => exact ⟨_, _, rfl, hbracket.2.2⟩
  | extension name types numbers ih => exact ⟨_, _, rfl, by decide⟩
  | pointerTo t space ih =>
    obtain ⟨s, ss, hs, hopens⟩ := ih
    cases space <;> simp [pieces, hs, hopens]
  | function result parameters isVariadic ihr ihp =>
    obtain ⟨s, ss, hs, hopens⟩ := ihr
    simp [pieces, hs, hopens]

end Ty

end Grammar

namespace Reader

open Grammar

variable {read ps qs rest : List Piece}

-- The texts of tokens that go on with no type before them.
def EndsType (ss : List String) : Prop :=
  ss.head? ≠ some "*" ∧ ss.head? ≠ some "(" ∧ ¬(ss.head? = some "addrspace" ∧ ss[1]? = some "(")

instance (ss : List String) : Decidable (EndsType ss) :=
  inferInstanceAs (Decidable (_ ∧ _ ∧ ¬(_ ∧ _)))

@[simp]
theorem endsType_nil : EndsType [] := by simp [EndsType]

@[simp]
theorem endsType_cons (s : String) (ss : List String) : EndsType (s :: ss) ↔
    s ≠ "*" ∧ s ≠ "(" ∧ ¬(s = "addrspace" ∧ ss.head? = some "(") := by
  simp [EndsType, List.head?_eq_getElem?]

-- The pieces are what a type begins with, before its suffixes.
def IsHead (ps : List Piece) : Prop :=
  ∀ read rest, typeHead (between read (ps ++ rest)) = .ok () (between (read ++ ps) rest)

-- The pieces are suffixes of a type, one for each of some rounds.
def IsSuffixes (ps : List Piece) : Prop :=
  ∃ k ≤ (texts ps).length, ∀ n read rest,
    typeSuffixes (n + k) (between read (ps ++ rest)) =
      typeSuffixes n (between (read ++ ps) rest)

theorem isHead_group {opening closing : String} (hopening : opening ∈ ["[", "\x7b", "<"])
    (hclose : Bracket.closer? opening = some closing) (hps : Balanced ps) :
    IsHead (punct opening :: (ps ++ [punct closing])) := by
  intro read rest
  have hskip := skipGroup_balanced read rest hclose hps
  have hopens : ((placed read .punct opening).isPunct "[" = true ∨
      (placed read .punct opening).isPunct "\x7b" = true) ∨
      (placed read .punct opening).isPunct "<" = true := by
    simpa [placed, Token.isPunct, or_assoc] using hopening
  simp [typeHead, hopens, hskip]

theorem isHead_word {s : String} (hs : Keyword.isTypeWord s = true) (htarget : s ≠ "target") :
    IsHead [word s] := by
  intro read rest
  simp [typeHead, placed, Token.isPunct, Token.isWord, hs, htarget]

theorem isHead_target (hps : Balanced ps) :
    IsHead (word "target" :: punct "(" :: (ps ++ [punct ")"])) := by
  intro read rest
  have hclose : Bracket.closer? "(" = some ")" := rfl
  have hskip := skipGroup_balanced (read ++ [word "target"]) rest hclose hps
  have htarget : Keyword.isTypeWord "target" = true := by decide
  simp at hskip
  simp [typeHead, placed, Token.isPunct, Token.isWord, htarget, hskip]

theorem IsSuffixes.nil : IsSuffixes [] :=
  ⟨0, by simp, by simp⟩

theorem IsSuffixes.append (hps : IsSuffixes ps) (hqs : IsSuffixes qs) : IsSuffixes (ps ++ qs) := by
  obtain ⟨k, hk, hps⟩ := hps
  obtain ⟨l, hl, hqs⟩ := hqs
  refine ⟨l + k, by simp; omega, fun n read rest => ?_⟩
  rw [← Nat.add_assoc, List.append_assoc, hps, hqs, List.append_assoc]

theorem isSuffixes_star : IsSuffixes [punct "*"] :=
  ⟨1, by simp, by simp [typeSuffixes]⟩

theorem isSuffixes_addressSpace (n : Nat) : IsSuffixes (space :: addressSpace n) := by
  refine ⟨1, by simp [addressSpace], fun rounds read rest => ?_⟩
  have hclose : Bracket.closer? "(" = some ")" := rfl
  have hskip := skipGroup_balanced (read ++ [space, word "addrspace"]) rest hclose
    (balanced_word n.repr .nil)
  simp [typeSuffixes, addressSpace] at hskip ⊢
  simp [hskip]

theorem isSuffixes_parameters (hps : Balanced ps) :
    IsSuffixes (space :: punct "(" :: (ps ++ [punct ")"])) := by
  refine ⟨1, by simp, fun rounds read rest => ?_⟩
  have hclose : Bracket.closer? "(" = some ")" := rfl
  have hskip := skipGroup_balanced (read ++ [space]) rest hclose hps
  simp [typeSuffixes] at hskip ⊢
  simp [hskip]

theorem typeSuffixes_end (hrest : EndsType (texts rest)) (rounds : Nat) :
    typeSuffixes rounds (between read rest) = .ok () (between read rest) := by
  cases rounds with
  | zero => rfl
  | succ rounds =>
    obtain ⟨hstar, hopen, hspace⟩ := hrest
    simp [typeSuffixes, hstar, hopen, hspace]

end Reader

namespace Grammar

open Reader

theorem Primitive.word_ne_target (p : Primitive) : p.word ≠ "target" := by
  cases p <;> decide

theorem ne_of_head? {s t : String} (h : s.toList.head? ≠ t.toList.head?) : s ≠ t := by
  rintro rfl
  exact h rfl

-- A type is what a type begins with, followed by suffixes.
theorem Ty.exists_isHead (t : Ty) :
    ∃ head suffixes, t.pieces = head ++ suffixes ∧ IsHead head ∧ IsSuffixes suffixes := by
  have hopening : "[" ∈ ["[", "\x7b", "<"] ∧ "\x7b" ∈ ["[", "\x7b", "<"] ∧
      "<" ∈ ["[", "\x7b", "<"] := by simp
  induction t with
  | integer bits =>
    exact ⟨_, [], (List.append_nil _).symm, isHead_word (isTypeWord_integer bits)
      (ne_of_head? (by simp)), .nil⟩
  | primitive p =>
    exact ⟨_, [], (List.append_nil _).symm,
      isHead_word (isTypeWord_primitive p) p.word_ne_target, .nil⟩
  | pointer space =>
    have hhead : IsHead [word "ptr"] := isHead_word (by decide) (by decide)
    cases space with
    | none => exact ⟨_, [], rfl, hhead, .nil⟩
    | some n => exact ⟨_, _, rfl, hhead, isSuffixes_addressSpace n⟩
  | named name =>
    obtain ⟨c, cs, hlist⟩ := name.toList_after '%'
    exact ⟨_, [], (List.append_nil _).symm, isHead_word (isTypeWord_local name)
      (ne_of_head? (by simp [hlist])), .nil⟩
  | array n t ih =>
    refine ⟨_, [], (List.append_nil _).symm, ?_, .nil⟩
    rw [pieces, ← List.append_assoc]
    exact isHead_group hopening.1 rfl (balanced_spaced_append t.balanced_pieces)
  | vector isScalable n t ih =>
    refine ⟨_, [], (List.append_nil _).symm, ?_, .nil⟩
    rw [pieces, ← List.append_assoc]
    exact isHead_group hopening.2.2 rfl (balanced_spaced_append t.balanced_pieces)
  | record isPacked fields ih =>
    refine ⟨_, [], (List.append_nil _).symm, ?_, .nil⟩
    have hfields : ∀ ps ∈ parts fields, Balanced ps := by
      simpa using fun t _ => t.balanced_pieces
    cases isPacked with
    | false => exact isHead_group hopening.2.1 rfl (balanced_padded hfields)
    | true => exact isHead_group hopening.2.2 rfl (balanced_braced hfields)
  | extension name types numbers ih =>
    refine ⟨_, [], (List.append_nil _).symm, isHead_target (balanced_commas ?_), .nil⟩
    exact forall_mem_extension name _ _ (.token (by simp) .nil)
      (by simpa using fun t _ => t.balanced_pieces) (fun n => balanced_word n.repr .nil)
  | pointerTo t space ih =>
    obtain ⟨head, suffixes, ht, hhead, hsuffixes⟩ := ih
    cases space with
    | none =>
      refine ⟨head, suffixes ++ [punct "*"], by simp [pieces, ht], hhead,
        hsuffixes.append isSuffixes_star⟩
    | some n =>
      refine ⟨head, suffixes ++ ((space :: addressSpace n) ++ [punct "*"]), by simp [pieces, ht],
        hhead, hsuffixes.append ((isSuffixes_addressSpace n).append isSuffixes_star)⟩
  | function result parameters isVariadic ihr ihp =>
    obtain ⟨head, suffixes, ht, hhead, hsuffixes⟩ := ihr
    have hparts := forall_mem_ellipsis (P := Balanced) (parts parameters) isVariadic
      (by simpa using fun t _ => t.balanced_pieces) (balanced_word _ .nil)
    exact ⟨head, _, by rw [pieces, ht, List.append_assoc], hhead,
      hsuffixes.append (isSuffixes_parameters (balanced_commas hparts))⟩

-- A type is read as it was written.
@[simp]
theorem type_between (t : Ty) (read rest : List Piece) (hrest : EndsType (texts rest)) :
    type (between read (t.pieces ++ rest)) = .ok t.print (between (read ++ t.pieces) rest) := by
  obtain ⟨head, suffixes, ht, hhead, k, hk, hsuffixes⟩ := t.exists_isHead
  -- Each suffix has a token of its own, so there are enough rounds.
  obtain ⟨n, hn⟩ : ∃ n, (texts (suffixes ++ rest)).length = n + k :=
    ⟨_, (Nat.sub_add_cancel (by simp; omega)).symm⟩
  have hhead := hhead read (suffixes ++ rest)
  refine covered_of_ok t.solid_pieces ?_
  simp only [ht, List.append_assoc, bind_apply, hhead, get_apply, remaining_between, hn, hsuffixes,
    typeSuffixes_end hrest]

end Grammar

namespace Reader

open Grammar

-- Reading a type undoes writing it, in front of any text that can be split into tokens and does not
-- go on with a suffix of a type.
theorem type_print (t : Ty) (blank : List Char) (hblank : ∀ c ∈ blank, isBlank c = true)
    (hsome : blank ≠ []) (rest : String) (ts : List Token) (hrest : tokenize rest = .ok ts)
    (hnext : EndsType (ts.map (·.text))) :
    ReadsBefore type t.print (String.ofList blank) rest := by
  obtain ⟨qs, rfl, hqs, rfl⟩ := tokenize_eq_ok_iff.mp hrest
  obtain ⟨c, cs, rfl⟩ := List.exists_cons_of_ne_nil hsome
  have hfits : Fits (t.pieces ++ (blanks (c :: cs) ++ qs)) none := by
    have hfree : Free (first (blanks (c :: cs) ++ qs) none) := by
      simpa [first] using free_blank (hblank c (by simp))
    simpa using ⟨Ty.apart_pieces t _ hfree, fits_blanks hblank _, hqs⟩
  have hread := Grammar.type_between t [] (blanks (c :: cs) ++ qs)
    (by simpa [map_text_place] using hnext)
  have hprint : String.ofList (c :: cs) = print (blanks (c :: cs)) := by simp [print]
  rw [hprint]
  exact readsBefore_of_pieces (by simp) hrest (tokenize_eq_ok_iff.mpr ⟨_, rfl, hfits, rfl⟩) hread

theorem type_print_nested :
    ∃ t : Ty,
      t.print = "\x7b [4 x i8]*, %\"a b\" addrspace(3)*, <vscale x 2 x i1> (ptr, ...)* \x7d" ∧
        ReadsBefore type t.print " \n" ", (%x)" :=
  ⟨.record false
      [.pointerTo (.array 4 (.integer 8)) none,
        .pointerTo (.named (.quoted "a b".toList (by decide))) (some 3),
        .pointerTo (.function (.vector true 2 (.integer 1)) [.pointer none] true) none],
    by decide,
    type_print _ [' ', '\n'] (by simp [isBlank]) (by simp) _ _
      (by decide : tokenize ", (%x)" = .ok
        [⟨.punct, ",", 0, 1⟩, ⟨.punct, "(", 2, 3⟩, ⟨.word, "%x", 3, 5⟩, ⟨.punct, ")", 5, 6⟩])
      (by decide)⟩

end Reader

end TestFocus
