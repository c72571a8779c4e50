import TestFocus.Proofs.Reading.AnnotationText
import TestFocus.Proofs.Reading.Consumption
import TestFocus.Proofs.Reading.QualifierText

namespace TestFocus

open Lexer Text Piece Cursor

namespace Grammar

-- `ty attributes %register` or `...`
inductive Param where
  | named (type : Ty) (attributes : List (Attribute Keyword.parameterAttributes)) (register : Name)
  | variadic

namespace Param

def pieces : Param → List Piece
  | named type attributes register =>
    type.pieces ++ space :: (Attribute.allBefore attributes ++ [word (register.after '%')])
  | variadic => [word "..."]

def parameter : Param → Parameter
  | named type attributes register =>
    { type := type.print, attributes := attributes.map (·.text), register := register.after '%' }
  | variadic => Parameter.variadic

end Param

-- The name of a group of which one member is kept: `$name`, or `$` and a text between quotes.
inductive Symbol where
  | bare (chars : List Char) (chars_name : chars.all isNameChar)
      (chars_solid : ∀ c ∈ chars, isSpace c = false)
  | quoted (name : Quoted)

namespace Symbol

def pieces : Symbol → List Piece
  | bare chars _ _ => [word (String.ofList ('$' :: chars))]
  | quoted name => [word "$", name.piece]

def text (s : Symbol) : String :=
  print s.pieces

end Symbol

-- `comdat`, for a group named like the function, or `comdat($name)`
inductive Comdat where
  | own
  | named (symbol : Symbol)

namespace Comdat

def pieces : Comdat → List Piece
  | own => []
  | named symbol => punct "(" :: (symbol.pieces ++ [punct ")"])

-- The name of the group that a function belongs to.
def text (function : Name) : Comdat → String
  | own => function.after '$'
  | named symbol => symbol.text

end Comdat

-- What may follow the attributes of a function.
inductive Clause where
  | sectionName (name : Quoted)
  | partition (name : Quoted)
  | comdat (group : Comdat)
  | alignment (n : Nat)
  | collector (name : Quoted)
  | prefixData (constant : Typed)
  | prologue (constant : Typed)
  | personality (constant : Typed)
  | metadata (kind : Name) (n : Nat)

namespace Clause

def keyword : Clause → String
  | sectionName _ => "section"
  | partition _ => "partition"
  | comdat _ => "comdat"
  | alignment _ => "align"
  | collector _ => "gc"
  | prefixData _ => "prefix"
  | prologue _ => "prologue"
  | personality _ => "personality"
  | metadata kind _ => kind.after '!'

-- The words that open a clause; metadata opens with its kind.
def words : List String :=
  ["section", "partition", "comdat", "align", "gc", "prefix", "prologue", "personality"]

def operand : Clause → List Piece
  | sectionName name | partition name | collector name => [space, name.piece]
  | comdat group => group.pieces
  | alignment n => [space, word n.repr]
  | prefixData constant | prologue constant | personality constant => space :: constant.pieces
  | metadata _ n => [space, word (node n)]

def pieces (c : Clause) : List Piece :=
  word c.keyword :: c.operand

-- `ty constant` as one text
def constantText (constant : Typed) : String :=
  constant.type.print ++ " " ++ constant.value.text

-- What the clause adds to the definition of a function.
def apply (function : Name) (c : Clause) (d : Definition) : Definition :=
  match c with
  | sectionName name => { d with sectionName := some (String.ofList name.body) }
  | partition name => { d with partition := some (String.ofList name.body) }
  | comdat group => { d with comdat := some (group.text function) }
  | alignment n => { d with alignment := some n.repr }
  | collector name => { d with collector := some (String.ofList name.body) }
  | prefixData constant => { d with prefixData := some (constantText constant) }
  | prologue constant => { d with prologue := some (constantText constant) }
  | personality constant => { d with personality := some (constantText constant) }
  | metadata kind n => { d with metadata := d.metadata ++ [(kind.after '!', node n)] }

-- Clauses with a space before each.
def all (cs : List Clause) : List Piece :=
  cs.flatMap fun c => space :: c.pieces

end Clause

-- An address space with a space before it, or nothing.
def ledSpace : Option Nat → List Piece
  | none => []
  | some n => space :: Grammar.addressSpace n

structure Header where
  linkage : Option (Word [.linkage])
  preemption : Option (Word [.preemption])
  visibility : Option (Word [.visibility])
  storageClass : Option (Word [.storage])
  convention : Option Convention
  returnAttributes : List (Attribute Keyword.parameterAttributes)
  returnType : Ty
  name : Name
  parameters : List Param
  addressMark : Option (Word [.addressMark])
  addressSpace : Option Nat
  attributes : List FunctionAttribute
  sectionName : Option Quoted
  partition : Option Quoted
  comdat : Option Comdat
  alignment : Option Nat
  collector : Option Quoted
  prefixData : Option Typed
  prologue : Option Typed
  personality : Option Typed
  metadata : List (Name × Nat)

namespace Header

-- What stands before the type of the result.
def qualifiers (h : Header) : List Piece :=
  spaced (h.linkage.toList.map (·.text)) ++ (spaced (h.preemption.toList.map (·.text)) ++
    (spaced (h.visibility.toList.map (·.text)) ++ (spaced (h.storageClass.toList.map (·.text)) ++
      (Convention.optional h.convention ++ Attribute.allBefore h.returnAttributes))))

-- The clauses in their usual order.
def clauses (h : Header) : List Clause :=
  (h.sectionName.map .sectionName).toList ++ (h.partition.map .partition).toList ++
    (h.comdat.map .comdat).toList ++ (h.alignment.map .alignment).toList ++
    (h.collector.map .collector).toList ++ (h.prefixData.map .prefixData).toList ++
    (h.prologue.map .prologue).toList ++ (h.personality.map .personality).toList ++
    h.metadata.map fun (kind, n) => .metadata kind n

-- What stands behind the parameters.
def ending (h : Header) : List Piece :=
  led (h.addressMark.toList.map (·.text)) ++ (ledSpace h.addressSpace ++
    (FunctionAttribute.allAfter h.attributes ++ Clause.all h.clauses))

def pieces (h : Header) : List Piece :=
  word "define" :: space :: (h.qualifiers ++ (h.returnType.pieces ++ space ::
    word (h.name.after '@') :: punct "(" :: (commas (h.parameters.map (·.pieces)) ++
      punct ")" :: h.ending)))

def print (h : Header) : String :=
  Piece.print h.pieces

-- What the header says of the function.
def definition (h : Header) : Definition :=
  { name := h.name.after '@'
    linkage := h.linkage.map (·.text)
    preemption := (h.preemption.map (·.text)).getD "dso_preemptable"
    visibility := h.visibility.map (·.text)
    storageClass := h.storageClass.map (·.text)
    callingConvention := (h.convention.map (·.text)).getD "ccc"
    returnAttributes := h.returnAttributes.map (·.text)
    returnType := h.returnType.print
    parameters := h.parameters.map (·.parameter)
    addressMark := h.addressMark.map (·.text)
    addressSpace := h.addressSpace.map fun n => Piece.print (Grammar.addressSpace n)
    attributes := h.attributes.map (·.text)
    sectionName := h.sectionName.map fun name => String.ofList name.body
    partition := h.partition.map fun name => String.ofList name.body
    comdat := h.comdat.map (·.text h.name)
    alignment := h.alignment.map (·.repr)
    collector := h.collector.map fun name => String.ofList name.body
    prefixData := h.prefixData.map Clause.constantText
    prologue := h.prologue.map Clause.constantText
    personality := h.personality.map Clause.constantText
    metadata := h.metadata.map fun (kind, n) => (kind.after '!', node n)
    callSites := [] }

end Header

namespace Clause

-- A clause that sets one field sets it if it is there.
theorem foldl_option {α : Type} {function : Name} (clause : α → Clause)
    (set : Definition → Option String → Definition) (value : α → String)
    (hclause : ∀ d a, (clause a).apply function d = set d (some (value a))) (o : Option α)
    {d : Definition} (hd : set d none = d) :
    (o.map clause).toList.foldl (fun d c => c.apply function d) d = set d (o.map value) := by
  cases o with
  | none => exact hd.symm
  | some a => exact hclause d a

theorem foldl_metadata (function : Name) (notes : List (Name × Nat)) (d : Definition) :
    (notes.map fun (kind, n) => metadata kind n).foldl (fun d c => c.apply function d) d =
      { d with metadata := d.metadata ++ notes.map fun (kind, n) => (kind.after '!', node n) } := by
  induction notes generalizing d with
  | nil => simp
  | cons note notes ih =>
    rw [List.map_cons, List.foldl_cons, ih]
    simp [apply]

end Clause

-- What a header says without its clauses.
def Header.base (h : Header) : Definition :=
  { name := h.name.after '@'
    linkage := h.linkage.map (·.text)
    preemption := (h.preemption.map (·.text)).getD "dso_preemptable"
    visibility := h.visibility.map (·.text)
    storageClass := h.storageClass.map (·.text)
    callingConvention := (h.convention.map (·.text)).getD "ccc"
    returnAttributes := h.returnAttributes.map (·.text)
    returnType := h.returnType.print
    parameters := h.parameters.map (·.parameter)
    addressMark := h.addressMark.map (·.text)
    addressSpace := h.addressSpace.map fun n => Piece.print (Grammar.addressSpace n)
    attributes := h.attributes.map (·.text) }

theorem Header.foldl_clauses (h : Header) :
    h.clauses.foldl (fun d c => c.apply h.name d) h.base = h.definition := by
  simp only [clauses, List.foldl_append]
  rw [Clause.foldl_option .sectionName (fun d v => { d with sectionName := v })
      (fun name => String.ofList name.body) (fun _ _ => rfl),
    Clause.foldl_option .partition (fun d v => { d with partition := v })
      (fun name => String.ofList name.body) (fun _ _ => rfl),
    Clause.foldl_option .comdat (fun d v => { d with comdat := v }) (·.text h.name)
      (fun _ _ => rfl),
    Clause.foldl_option .alignment (fun d v => { d with alignment := v }) (·.repr) (fun _ _ => rfl),
    Clause.foldl_option .collector (fun d v => { d with collector := v })
      (fun name => String.ofList name.body) (fun _ _ => rfl),
    Clause.foldl_option .prefixData (fun d v => { d with prefixData := v }) Clause.constantText
      (fun _ _ => rfl),
    Clause.foldl_option .prologue (fun d v => { d with prologue := v }) Clause.constantText
      (fun _ _ => rfl),
    Clause.foldl_option .personality (fun d v => { d with personality := v }) Clause.constantText
      (fun _ _ => rfl), Clause.foldl_metadata]
  all_goals rfl

theorem Param.apart_pieces (p : Param) : Apart p.pieces := by
  cases p <;> simp [pieces]

theorem Symbol.apart_pieces (s : Symbol) : Apart s.pieces := by
  cases s with
  | bare chars chars_name chars_solid =>
    have hword : IsWord (String.ofList ('$' :: chars)) := by
      refine isWord_ofList ?_
      cases chars with
      | nil => rfl
      | cons c cs => simp_all [isPlain, isNameChar, takesQuote]
    exact (apart_word hword detached_nil).mpr apart_nil
  | quoted name =>
    have hword : IsWord "$" := isWord_ofList rfl
    simp [pieces, hword, name.closed]

theorem Comdat.detached_pieces (c : Comdat) : Detached c.pieces := by
  cases c <;> simp [pieces]

theorem Comdat.apart_pieces (c : Comdat) : Apart c.pieces := by
  cases c with
  | own => simp [pieces]
  | named symbol => simp [pieces, symbol.apart_pieces]

theorem Clause.all_cons (c : Clause) (cs : List Clause) :
    all (c :: cs) = space :: (c.pieces ++ all cs) := by
  simp [all]

-- What holds of the words for clauses and of the kinds of metadata holds of what opens a clause.
theorem Clause.keyword_cases {P : String → Prop} (c : Clause)
    (hwords : ∀ s ∈ words, P s) (hkind : ∀ s, startsWithChar s '!' = true → P s) :
    P c.keyword := by
  cases c with
  | metadata kind n =>
    obtain ⟨d, ds, hlist⟩ := kind.toList_after '!'
    exact hkind _ (by simp [keyword, startsWithChar, hlist])
  | _ => exact hwords _ (by simp [keyword, words])

theorem Clause.head?_all {P : Option String → Prop} (hnone : P none)
    (hkeyword : ∀ c : Clause, P (some c.keyword)) (cs : List Clause) :
    P (texts (all cs)).head? := by
  cases cs with
  | nil => exact hnone
  | cons c cs => simpa [all_cons, pieces] using hkeyword c

theorem Clause.isWord_keyword (c : Clause) : IsWord c.keyword := by
  cases c with
  | metadata kind n => exact kind.isWord_after rfl
  | _ => exact isWord_ofList rfl

theorem Clause.apart_pieces (c : Clause) : Apart c.pieces := by
  have hkeyword := c.isWord_keyword
  cases c <;> simp_all [pieces, operand, Quoted.closed, Comdat.apart_pieces, Comdat.detached_pieces]

theorem Clause.detached_all (cs : List Clause) : Detached (all cs) := by
  cases cs <;> simp [all]

theorem Clause.apart_all (cs : List Clause) : Apart (all cs) := by
  induction cs with
  | nil => exact apart_nil
  | cons c cs ih =>
    have hrest : Detached (cs.flatMap fun c => space :: c.pieces) := detached_all cs
    simpa [all, apart_append c.apart_pieces hrest] using ih

theorem detached_ledSpace_append (n : Option Nat) {ps : List Piece} (hps : Detached ps) :
    Detached (ledSpace n ++ ps) := by
  cases n with
  | none => exact hps
  | some n => simp [ledSpace]

theorem apart_ledSpace_append (n : Option Nat) {ps : List Piece} :
    Apart (ledSpace n ++ ps) ↔ Apart ps := by
  cases n <;> simp [ledSpace, addressSpace]

theorem Header.apart_ending (h : Header) : Apart h.ending := by
  have hmark : ∀ s ∈ h.addressMark.toList.map (·.text), IsWord s := fun s => Word.isWord_of_mem_map
  have hclauses := Clause.detached_all h.clauses
  have hattributes : Detached (FunctionAttribute.allAfter h.attributes ++ Clause.all h.clauses) :=
    FunctionAttribute.detached_allAfter_append hclauses
  have hrest := detached_ledSpace_append h.addressSpace hattributes
  simp [ending, apart_led_append hmark hrest, apart_ledSpace_append,
    FunctionAttribute.apart_allAfter_append hclauses, Clause.apart_all]

theorem Header.apart_pieces (h : Header) : Apart h.pieces := by
  have hword {classes : List WordClass} (o : Option (Word classes)) :
      ∀ s ∈ o.toList.map (·.text), IsWord s := fun s => Word.isWord_of_mem_map
  have hname : IsWord (h.name.after '@') := h.name.isWord_after rfl
  have hdefine : IsWord "define" := isWord_ofList rfl
  have hparameters : ∀ ps ∈ h.parameters.map (·.pieces), Apart ps :=
    List.forall_mem_map.mpr fun p _ => p.apart_pieces
  simp [pieces, qualifiers, hdefine, hname, apart_spaced_append (hword _),
    apart_commas_append hparameters, h.apart_ending]

end Grammar

namespace Reader

open Grammar

-- A name in parentheses is what is left when they are taken off.
theorem trim_symbol (symbol : Symbol) :
    trim (trimEndChar ')' (trimStartChar '('
      (print (punct "(" :: (symbol.pieces ++ [punct ")"]))))) = symbol.text := by
  obtain ⟨cs, hcs, hlast⟩ : ∃ cs, spell symbol.pieces = '$' :: cs ∧
      ∀ c ∈ ('$' :: cs).getLast?, (c == ')') = false ∧ isSpace c = false := by
    cases symbol with
    | bare chars chars_name chars_solid =>
      refine ⟨chars, by simp [Symbol.pieces, text], fun c hc => ?_⟩
      rcases List.mem_cons.mp (List.mem_of_getLast? hc) with rfl | hc
      · decide
      · refine ⟨beq_eq_false_iff_ne.mpr ?_, chars_solid c hc⟩
        rintro rfl
        exact absurd (List.all_eq_true.mp chars_name _ hc) (by decide)
    | quoted name =>
      refine ⟨quote name.body |>.toList, by simp [Symbol.pieces, text], fun c hc => ?_⟩
      have hlist : '$' :: (quote name.body).toList = ('$' :: '"' :: name.body) ++ ['"'] := by
        simp [quote]
      rw [hlist, List.getLast?_concat] at hc
      cases hc
      decide
  have hopen : ('$' :: cs ++ [')']).dropWhile (· == '(') = '$' :: cs ++ [')'] :=
    dropWhile_of_head? (by simp)
  have hclose : dropEndWhile (· == ')') ('$' :: cs ++ [')']) = '$' :: cs := by
    have hkeep : dropEndWhile (· == ')') ('$' :: cs) = '$' :: cs :=
      dropEndWhile_of_getLast? fun c hc => (hlast c hc).1
    simpa [dropEndWhile] using hkeep
  have hstart : ('$' :: cs).dropWhile isSpace = '$' :: cs :=
    dropWhile_of_head? (by simpa using (by decide : isSpace '$' = false))
  have hend : dropEndWhile isSpace ('$' :: cs) = '$' :: cs :=
    dropEndWhile_of_getLast? fun c hc => (hlast c hc).2
  have hspell : spell (punct "(" :: (symbol.pieces ++ [punct ")"])) =
      '(' :: ('$' :: cs ++ [')']) := by
    simp [hcs, text]
  simp only [trim, trimEndChar, trimStartChar, String.toList_ofList, hspell, List.dropWhile_cons,
    beq_self_eq_true, if_true, hopen, hclose, hstart, hend, Symbol.text, print, hcs]

theorem comdatName_between (function : Name) (c : Comdat) (read : List Piece) {rest : List Piece}
    (hrest : (texts rest).head? ≠ some "(") :
    comdatName (function.after '@') (between read (c.pieces ++ rest)) =
      .ok (c.text function) (between (read ++ c.pieces) rest) := by
  cases c with
  | own =>
    have hname : String.ofList (replaceFirst '@' '$' (function.after '@').toList) =
        function.after '$' := by
      cases function <;> simp [Name.after, replaceFirst]
    simp [comdatName, Comdat.pieces, Comdat.text, hrest, hname]
  | named symbol =>
    have hbalanced : Balanced symbol.pieces := by
      cases symbol with
      | bare chars chars_name chars_solid => exact balanced_word _ .nil
      | quoted name => exact balanced_word _ (.token (by simp) .nil)
    have hgroup := group_balanced read rest (rfl : Bracket.closer? "(" = some ")") hbalanced
    simp [comdatName, Comdat.pieces, Comdat.text, hgroup, trim_symbol]

theorem headerClause_metadata (d : Definition) {keyword : String}
    (hkeyword : startsWithChar keyword '!' = true) :
    headerClause d keyword = do
      discard advance
      return some { d with metadata := d.metadata ++ [(keyword, ← value)] } := by
  unfold headerClause
  split
  case h_9 => rw [if_pos hkeyword]
  all_goals exact absurd hkeyword (by decide)

-- A clause is read as what it adds to the definition.
theorem headerClause_between (function : Name) (c : Clause) {d : Definition}
    (hd : d.name = function.after '@') (read : List Piece) {rest : List Piece}
    (hparen : (texts rest).head? ≠ some "(") (hbrace : (texts rest).head? ≠ some "\x7b") :
    headerClause d c.keyword (between read (c.pieces ++ rest)) =
      .ok (some (c.apply function d)) (between (read ++ c.pieces) rest) := by
  cases c with
  | sectionName name =>
    simp [headerClause, Clause.keyword, Clause.pieces, Clause.operand, Clause.apply, unquoted,
      trimChar_quote name.closed]
  | partition name =>
    simp [headerClause, Clause.keyword, Clause.pieces, Clause.operand, Clause.apply, unquoted,
      trimChar_quote name.closed]
  | comdat group =>
    simp [headerClause, Clause.keyword, Clause.pieces, Clause.operand, Clause.apply, hd,
      comdatName_between function group _ hparen]
  | alignment n =>
    simp [headerClause, Clause.keyword, Clause.pieces, Clause.operand, Clause.apply, placed]
  | collector name =>
    simp [headerClause, Clause.keyword, Clause.pieces, Clause.operand, Clause.apply, unquoted,
      trimChar_quote name.closed]
  | prefixData constant =>
    simp [headerClause, Clause.keyword, Clause.pieces, Clause.operand, Clause.apply, typedConstant,
      Clause.constantText]
  | prologue constant =>
    simp [headerClause, Clause.keyword, Clause.pieces, Clause.operand, Clause.apply, typedConstant,
      Clause.constantText]
  | personality constant =>
    simp [headerClause, Clause.keyword, Clause.pieces, Clause.operand, Clause.apply, typedConstant,
      Clause.constantText]
  | metadata kind n =>
    obtain ⟨c, cs, hlist⟩ := kind.toList_after '!'
    have hbang : startsWithChar (kind.after '!') '!' = true := by simp [startsWithChar, hlist]
    simp [headerClause_metadata d hbang, Clause.keyword, Clause.pieces, Clause.operand,
      Clause.apply, value_node n _ hbrace hparen]

theorem head?_clauses_ne {s : String} (hwords : s ∉ Clause.words)
    (hkind : startsWithChar s '!' = false) (cs : List Clause) :
    (texts (Clause.all cs)).head? ≠ some s := by
  refine Clause.head?_all (P := (· ≠ some s)) (by simp) (fun c => ?_) cs
  refine c.keyword_cases (P := fun t => some t ≠ some s) ?_ ?_
  · rintro t ht ⟨⟩
    exact hwords ht
  · rintro t ht ⟨⟩
    rw [hkind] at ht
    cases ht

theorem apply_name (function : Name) (c : Clause) (d : Definition) :
    (c.apply function d).name = d.name := by
  cases c <;> rfl

theorem headerClauses_between (function : Name) (cs : List Clause) (rounds : Nat)
    (hrounds : cs.length ≤ rounds) {d : Definition} (hd : d.name = function.after '@')
    (read : List Piece) :
    headerClauses rounds d (between read (Clause.all cs)) =
      .ok (cs.foldl (fun d c => c.apply function d) d) (between (read ++ Clause.all cs) []) := by
  induction cs generalizing rounds d read with
  | nil => cases rounds <;> simp [headerClauses, Clause.all]
  | cons c cs ih =>
    obtain ⟨rounds, rfl⟩ : ∃ k, rounds = k + 1 := ⟨rounds - 1, by simp at hrounds; omega⟩
    have hparen := head?_clauses_ne (s := "(") (by decide) (by decide) cs
    have hbrace := head?_clauses_ne (s := "\x7b") (by decide) (by decide) cs
    have hclause := headerClause_between function c hd (read ++ [space]) hparen hbrace
    have hmore := ih rounds (by simpa using hrounds) ((apply_name function c d).trans hd)
      (read ++ space :: c.pieces)
    have hkeyword : (texts (c.pieces ++ Clause.all cs)).head? = some c.keyword := by
      simp [Clause.pieces]
    simp only [List.append_assoc, List.cons_append, List.nil_append] at hclause hmore
    simp only [headerClauses, Clause.all_cons, between_gap, bind_apply, get_apply,
      peekText?_between, hkeyword, hclause, hmore, List.foldl_cons]

theorem length_le_clauses (cs : List Clause) : cs.length ≤ (texts (Clause.all cs)).length := by
  induction cs with
  | nil => simp
  | cons c cs ih =>
    simp only [Clause.all_cons, Clause.pieces, List.cons_append, texts_gap, texts_token,
      texts_append, List.length_cons, List.length_append]
    omega

theorem endsAttributes_clauses (cs : List Clause) : EndsAttributes (Clause.all cs) := by
  cases cs with
  | nil => rintro t ⟨⟩
  | cons c cs =>
    rintro t ht
    rw [Clause.all_cons, Clause.pieces] at ht
    cases ht
    refine ⟨by simp, ?_⟩
    refine c.keyword_cases (P := fun s => startsWithChar s '#' = false ∧
      Keyword.isFunctionAttribute s = false ∧ s ≠ "(" ∧ s ≠ "=") (by decide) ?_
    intro s hs
    have hne {t : String} (ht : startsWithChar t '!' = false) : s ≠ t := by
      rintro rfl
      rw [ht] at hs
      cases hs
    have hhash : startsWithChar s '#' = false := by
      simp only [startsWithChar, beq_iff_eq] at hs
      simp [startsWithChar, hs]
    have hknown : Keyword.isFunctionAttribute s = false := by
      rw [Keyword.isFunctionAttribute, List.contains_eq_mem, decide_eq_false_iff_not]
      intro hmem
      exact hne (startsWithChar_of_isKeyword (isKeyword_functionAttribute hmem) (by decide)) rfl
    exact ⟨hhash, hknown, hne (by decide), hne (by decide)⟩

theorem lacks_clauses (cs : List Clause) : Lacks .addressMark (texts (Clause.all cs)).head? := by
  refine Clause.head?_all (P := Lacks .addressMark) rfl (fun c => ?_) cs
  refine c.keyword_cases (P := fun s => Keyword.addressMarks.contains s = false)
    (by decide) fun s hs => ?_
  rw [List.contains_eq_mem, decide_eq_false_iff_not]
  intro hmem
  have hkeyword := WordClass.isKeyword_of_mem (c := .addressMark) hmem
  rw [startsWithChar_of_isKeyword hkeyword (by decide)] at hs
  cases hs

theorem lacks_allAfter (fs : List FunctionAttribute) {rest : List Piece}
    (hrest : Lacks .addressMark (texts rest).head?) :
    Lacks .addressMark (texts (FunctionAttribute.allAfter fs ++ rest)).head? := by
  refine head?_allAfter (P := Lacks .addressMark) (fun s hs => ?_) fs hrest
  have hnone : ∀ s ∈ Keyword.addressMarks, ¬FunctionAttribute.Opens s := by decide
  rw [Lacks, Option.any_some, List.contains_eq_mem, decide_eq_false_iff_not]
  exact fun hmem => hnone s hmem hs

theorem addressMark_between (o : Option (Word [.addressMark])) (read : List Piece)
    {rest : List Piece} (hrest : Lacks .addressMark (texts rest).head?) :
    eatIf Keyword.isAddressMark (between read (led (o.toList.map (·.text)) ++ rest)) =
      .ok (o.map (·.text)) (between (read ++ led (o.toList.map (·.text))) rest) := by
  cases o with
  | none => simpa using eatIf_of_not Keyword.isAddressMark hrest
  | some w =>
    have hknown : Keyword.isAddressMark w.text = true := List.contains_iff_mem.mpr w.mem_words
    simp [hknown]

theorem addressSpace_led (n : Option Nat) (read : List Piece) {rest : List Piece}
    (hrest : (texts rest).head? ≠ some "addrspace") :
    addressSpace (between read (ledSpace n ++ rest)) =
      .ok (n.map fun n => print (Grammar.addressSpace n))
        (between (read ++ ledSpace n) rest) := by
  cases n with
  | none => simpa [ledSpace] using addressSpace_none read hrest
  | some n => simpa [ledSpace] using addressSpace_some n (read ++ [space]) rest

theorem parameter_between (unnamed : Nat) (type : Ty)
    (attributes : List (Attribute Keyword.parameterAttributes)) (register : Name)
    (read rest : List Piece) :
    parameter unnamed (between read ((Param.named type attributes register).pieces ++ rest)) =
      .ok ((Param.named type attributes register).parameter, false)
        (between (read ++ (Param.named type attributes register).pieces) rest) := by
  obtain ⟨c, cs, hlist⟩ := register.toList_after '%'
  have hpercent : startsWithChar (register.after '%') '%' = true := by simp [startsWithChar, hlist]
  have htype := type_attributes type attributes (.register register) read rest
  have hattributes (read : List Piece) :=
    parameterAttributes_simple attributes (.register register) read rest
  rw [Simple.text] at htype hattributes
  simp [parameter, Param.pieces, Param.parameter, htype, hattributes, placed, Token.isWord,
    hpercent]

theorem parameters_between (ps : List Param) (read rest : List Piece) :
    parameters (between read (punct "(" :: (commas (ps.map (·.pieces)) ++ punct ")" :: rest))) =
      .ok (ps.map (·.parameter))
        (between (read ++ punct "(" :: (commas (ps.map (·.pieces)) ++ [punct ")"])) rest) := by
  have hopen (p : Param) : ∃ s ss, texts p.pieces = s :: ss ∧ s ≠ ")" := by
    cases p with
    | named type attributes register =>
      obtain ⟨s, ss, hs, hopens⟩ := type.exists_opening
      exact ⟨s, _, by simp [Param.pieces, hs]; rfl, ne_of_opens hopens (by decide)⟩
    | variadic => exact ⟨"...", [], by simp [Param.pieces], by decide⟩
  have hstep (done : List (Parameter × Bool)) (p : Param) (read rest : List Piece) :
      (do
        separator done
        if ← eat "..." then return done ++ [(Parameter.variadic, false)]
        else return done ++ [← parameter (done.countP (·.2))] : Reader (List (Parameter × Bool)))
          (between read (before done.isEmpty ++ (p.pieces ++ rest))) =
        .ok (done ++ [(p.parameter, false)])
          (between (read ++ (before done.isEmpty ++ p.pieces)) rest) := by
    cases p with
    | named type attributes register =>
      have hellipsis : (texts ((Param.named type attributes register).pieces ++ rest)).head? ≠
          some "..." := by
        rw [Param.pieces, List.append_assoc]
        exact head?_type_ne (by decide) type _
      simp [eat_of_ne hellipsis, parameter_between]
    | variadic => simp [Param.pieces, Param.parameter]
  have hnil : texts [] = [] := rfl
  have hlist := untilClose_commas Param.pieces (fun p => (p.parameter, false)) ps hnil
    (by decide) (fun p _ => hopen p) (fun done p _ => hstep done p) (read ++ [punct "("])
    rest
  simp only [List.nil_append] at hlist
  simp only [parameters, bind_apply, discard_apply, expect_token, hlist]
  simp

theorem functionName_between (function : Name) (read rest : List Piece) :
    functionName (between read (word (function.after '@') :: rest)) =
      .ok (function.after '@') (between (read ++ [word (function.after '@')]) rest) := by
  obtain ⟨c, cs, hlist⟩ := function.toList_after '@'
  have hat : startsWithChar (function.after '@') '@' = true := by simp [startsWithChar, hlist]
  simp [functionName, placed, hat]

-- What stands before the type of the result is read word by word: each reader stops at the words of
-- the others and at the type.
theorem qualifiers_between (h : Header) (read : List Piece) {rest : List Piece} {α : Type}
    (more : Option String → Option String → Option String → Option String → Option String →
      List String → Reader α) :
    (do
      let linkage ← eatIf Keyword.isLinkage
      let preemption ← eatIf Keyword.isPreemption
      let visibility ← eatIf Keyword.isVisibility
      let storageClass ← eatIf Keyword.isStorageClass
      let convention ← callingConvention
      let returnAttributes ← parameterAttributes
      more linkage preemption visibility storageClass convention returnAttributes)
        (between read (h.qualifiers ++ (h.returnType.pieces ++ rest))) =
      more (h.linkage.map (·.text)) (h.preemption.map (·.text)) (h.visibility.map (·.text))
        (h.storageClass.map (·.text)) (h.convention.map (·.text)) (h.returnAttributes.map (·.text))
        (between (read ++ h.qualifiers) (h.returnType.pieces ++ rest)) := by
  have hattributes {d : WordClass} (hd : d ≠ .typeName ∧ d ≠ .parameterAttribute) :=
    lacks_allBefore hd.2 h.returnAttributes (lacks_type hd.1 h.returnType rest)
  have hconvention {d : WordClass}
      (hd : (d ≠ .typeName ∧ d ≠ .parameterAttribute) ∧ d ≠ .convention) :=
    lacks_convention hd.2 h.convention (hattributes hd.1)
  have hstorage {d : WordClass}
      (hd : ((d ≠ .typeName ∧ d ≠ .parameterAttribute) ∧ d ≠ .convention) ∧ d ≠ .storage) :=
    lacks_spaced hd.2 h.storageClass.toList (hconvention hd.1)
  have hpreemption := lacks_spaced (d := .preemption) (by decide) h.visibility.toList
    (hstorage (by decide))
  have hlinkage := lacks_spaced (d := .linkage) (by decide) h.preemption.toList
    (lacks_spaced (by decide) h.visibility.toList (hstorage (by decide)))
  have hparen := head?_type_ne (s := "(") (by decide) h.returnType rest
  simp only [Header.qualifiers, List.append_assoc, bind_apply,
    eatIf_optional (p := Keyword.isLinkage) rfl h.linkage _ hlinkage,
    eatIf_optional (p := Keyword.isPreemption) rfl h.preemption _ hpreemption,
    eatIf_optional (p := Keyword.isVisibility) rfl h.visibility _ (hstorage (by decide)),
    eatIf_optional (p := Keyword.isStorageClass) rfl h.storageClass _ (hconvention (by decide)),
    callingConvention_between h.convention _ (hattributes (d := .convention) (by decide)),
    parameterAttributes_between h.returnAttributes _
      (lacks_type (d := .parameterAttribute) (by decide) h.returnType rest) hparen]

-- What stands behind the parameters begins with no mark that the readers before it take.
theorem lacks_ledSpace (h : Header) : Lacks .addressMark (texts (ledSpace h.addressSpace ++
    (FunctionAttribute.allAfter h.attributes ++ Clause.all h.clauses))).head? := by
  cases h.addressSpace with
  | none => exact lacks_allAfter h.attributes (lacks_clauses h.clauses)
  | some n =>
    have hmark : "addrspace" ∈ WordClass.mark.words := by simp [WordClass.words]
    simpa [ledSpace, Grammar.addressSpace, Lacks] using
      WordClass.disjoint (d := .addressMark) (by decide) hmark

theorem header_between (h : Header) :
    header (between [] h.pieces) = .ok h.definition (between h.pieces []) := by
  have hspace : (texts (FunctionAttribute.allAfter h.attributes ++
      Clause.all h.clauses)).head? ≠ some "addrspace" :=
    head?_allAfter_ne (by decide) h.attributes
      (head?_clauses_ne (by decide) (by decide) h.clauses)
  have hclauses (read : List Piece) := headerClauses_between h.name h.clauses _
    (length_le_clauses h.clauses) (d := h.base) rfl read
  rw [h.foldl_clauses, Header.base] at hclauses
  have hstart (rest : List Piece) :
      discard (expect "define" "'define'") (between [] (word "define" :: space :: rest)) =
        .ok () (between [word "define", space] rest) := by
    simp
  have htype (read rest : List Piece) :=
    type_between h.returnType read (space :: word (h.name.after '@') :: rest)
      (endsType_of_noSuffix (noSuffix_simple (.global h.name)))
  rw [header, Header.pieces, bind_apply, hstart]
  refine (qualifiers_between h _ _).trans ?_
  simp only [bind_apply, htype, between_gap, functionName_between, parameters_between,
    Header.ending, addressMark_between h.addressMark _ (lacks_ledSpace h),
    addressSpace_led h.addressSpace _ hspace,
    functionAttributes_between h.attributes _ (endsAttributes_clauses h.clauses), get_apply,
    remaining_between, hclauses, finish_nil, pure_apply]
  simp

end Reader

-- Reading a header undoes writing it, and every header that is read has been read to its end.
theorem Definition.parse_header :
    (∀ h : Grammar.Header, Definition.parse h.print = .ok h.definition) ∧
    ∀ text d, Definition.parse text = .ok d →
      ∃ tokens, tokenize text = .ok tokens ∧
        Reader.header ⟨text, tokens, 0⟩ = .ok d ⟨text, tokens, tokens.length⟩ :=
  ⟨fun h => Reader.parse_pieces (h.apart_pieces none Piece.free_none) (Reader.header_between h),
    fun _ _ h => Reader.exists_tokens_of_parse .header .header h⟩

end TestFocus
