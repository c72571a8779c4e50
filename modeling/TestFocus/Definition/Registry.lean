import TestFocus.Definition.Header
import TestFocus.Table

namespace TestFocus

structure Registry where
  definitions : Table Definition
  aliases : Table String
  attributeGroups : Table (List String)
deriving Repr, DecidableEq

namespace Registry

def empty : Registry :=
  { definitions := ∅, aliases := ∅, attributeGroups := ∅ }

instance : Inhabited Registry := ⟨empty⟩

-- A later definition of the same name takes the place of the earlier one.
def define (r : Registry) (d : Definition) : Registry :=
  { r with definitions := r.definitions.insert d.name d }

def addAlias (r : Registry) (name target : String) : Registry :=
  { r with aliases := r.aliases.insert name target }

def addAttributeGroup (r : Registry) (id : String) (attributes : List String) : Registry :=
  { r with attributeGroups := r.attributeGroups.insert id attributes }

def followAlias (aliases : Table String) : Nat → String → String
  | 0, name => name
  | steps + 1, name =>
    match aliases.get? name with
    | some target => followAlias aliases steps target
    | none => name

-- The function that a name stands for. A chain that ends passes each alias once; one that does not
-- end is left somewhere on its cycle.
def resolve (r : Registry) (name : String) : String :=
  followAlias r.aliases (r.aliases.size + 1) name

def isAlias (r : Registry) (name : String) : Bool :=
  r.aliases.contains name

def get? (r : Registry) (name : String) : Option Definition :=
  r.definitions.get? (r.resolve name)

def contains (r : Registry) (name : String) : Bool :=
  r.definitions.contains (r.resolve name)

-- The names of the defined functions, in order.
def names (r : Registry) : List String :=
  r.definitions.keys

def size (r : Registry) : Nat :=
  r.definitions.size

def isEmpty (r : Registry) : Bool :=
  r.definitions.isEmpty

-- Records a call in the function of exactly this name; `none` when there is no such function.
def addCallSite? (r : Registry) (name : String) (site : CallSite) : Option Registry :=
  (r.definitions.get? name).map fun d =>
    { r with
      definitions := r.definitions.insert name { d with callSites := d.callSites ++ [site] } }

def callSites (r : Registry) (name : String) : List CallSite :=
  ((r.get? name).map (·.callSites)).getD []

def callSitesOfKind (r : Registry) (name : String) (kind : CallKind) : List CallSite :=
  (r.callSites name).filter (·.kind == kind)

-- A reference to a group stands for the attributes of the group; one to an unknown group for none.
def expandAttributes (r : Registry) (attributes : List String) : List String :=
  attributes.flatMap fun given =>
    match r.attributeGroups.get? given with
    | some group => group
    | none => if Text.startsWithChar given '#' then [] else [given]

def functionAttributes (r : Registry) (name : String) : List String :=
  r.expandAttributes (((r.get? name).map (·.attributes)).getD [])

def isStartup (r : Registry) (name : String) : Bool :=
  (r.get? name).any (·.isStartup)

end Registry

end TestFocus
