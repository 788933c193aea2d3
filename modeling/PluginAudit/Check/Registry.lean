import PluginAudit.Check.Basic

/-!
The registry of checks by their slugs, and the selection of some of them.
-/

namespace PluginAudit

/-- Checks in ascending order of their slugs. -/
structure Registry where
  checks : List (String × Check)

/-- Which checks to take. Nothing included means all of them, and so with the categories. -/
structure Selection where
  included : List String
  excluded : List String
  categories : List Category

namespace Registry

def empty : Registry := ⟨[]⟩

def get? (r : Registry) (slug : String) : Option Check := r.checks.lookup slug

def has (r : Registry) (slug : String) : Bool := (r.get? slug).isSome

def register (r : Registry) (check : Check) : Except ValueError Registry :=
  if r.has check.slug then .error (.duplicateCheck check.slug)
  else .ok ⟨Entries.put check.slug check r.checks⟩

def all (r : Registry) : List Check := r.checks.map (·.2)

def size (r : Registry) : Nat := r.checks.length

/-- The asked slugs that are not registered, ascending and without repetitions. -/
def unknown (r : Registry) (s : Selection) : List String :=
  ((s.included ++ s.excluded).filter (!r.has ·)).foldl
    (fun slugs slug => Entries.put slug () slugs) [] |>.map (·.1)

def Selects (s : Selection) (c : Check) : Bool :=
  (s.included.isEmpty || s.included.contains c.slug) && !s.excluded.contains c.slug &&
    (s.categories.isEmpty || c.categories.any s.categories.contains)

def select (r : Registry) (s : Selection) : Except ValueError (List Check) :=
  match r.unknown s with
  | [] => .ok (r.all.filter (Selects s))
  | slugs => .error (.unknownChecks slugs)

end Registry

end PluginAudit
