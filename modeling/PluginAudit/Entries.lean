/-!
Maps as lists of entries in ascending order of their keys.
-/

namespace PluginAudit.Entries

variable {κ α β : Type} [DecidableEq κ]

/-- Changes the value of `key`, or makes one where there is none. -/
def update (less : κ → κ → Bool) (key : κ) (change : Option α → α) :
    List (κ × α) → List (κ × α)
  | [] => [(key, change none)]
  | (k, v) :: rest =>
    if less key k then (key, change none) :: (k, v) :: rest
    else if key = k then (k, change (some v)) :: rest
    else (k, v) :: update less key change rest

def textLess (a b : String) : Bool := a < b

def natLess (a b : Nat) : Bool := a < b

/-- A new value replaces the one before. -/
def put (key : String) (value : α) (entries : List (String × α)) : List (String × α) :=
  update textLess key (fun _ => value) entries

/-- A value that is there stays. -/
def putNew (key : String) (value : α) (entries : List (String × α)) : List (String × α) :=
  update textLess key (·.getD value) entries

/-- Of the values of one key the last counts. -/
def ofList (entries : List (String × α)) : List (String × α) :=
  entries.foldl (fun m (k, v) => put k v m) []

def erase (key : String) (entries : List (String × α)) : List (String × α) :=
  entries.filter (·.1 != key)

end PluginAudit.Entries
