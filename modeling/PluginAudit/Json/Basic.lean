import PluginAudit.Entries

/-!
JSON values. Whole numbers that fit 64 bits, with or without a sign, are kept exactly; every
other number is a double. An object lists its members in their order; where the order carries no
meaning it is the ascending one of the keys.
-/

namespace PluginAudit

inductive Json.Number where
  | int (value : Int)
  | float (value : Float)

inductive Json where
  | null
  | bool (value : Bool)
  | num (value : Json.Number)
  | str (text : String)
  | arr (items : List Json)
  | obj (members : List (String × Json))

namespace Json

instance : Inhabited Json := ⟨.null⟩

/-- Of members with one key the last is kept. -/
def object (members : List (String × Json)) : Json :=
  .obj (Entries.ofList members)

def ofNat (n : Nat) : Json := .num (.int n)

def ofOption (o : Option String) : Json :=
  match o with
  | none => .null
  | some s => .str s

def field? (key : String) : Json → Option Json
  | .obj members => members.lookup key
  | _ => none

def Number.same : Number → Number → Bool
  | .int a, .int b => a == b
  | .float a, .float b => a == b
  | _, _ => false

mutual
/-- The same value: numbers are compared as numbers of their kind. -/
def same : Json → Json → Bool
  | .null, .null => true
  | .bool a, .bool b => a == b
  | .num a, .num b => a.same b
  | .str a, .str b => a == b
  | .arr a, .arr b => sameItems a b
  | .obj a, .obj b => sameMembers a b
  | _, _ => false

def sameItems : List Json → List Json → Bool
  | [], [] => true
  | a :: as, b :: bs => same a b && sameItems as bs
  | _, _ => false

def sameMembers : List (String × Json) → List (String × Json) → Bool
  | [], [] => true
  | (k, a) :: as, (l, b) :: bs => k == l && same a b && sameMembers as bs
  | _, _ => false
end

def sameOption : Option Json → Option Json → Bool
  | none, none => true
  | some a, some b => same a b
  | _, _ => false

end Json

end PluginAudit
