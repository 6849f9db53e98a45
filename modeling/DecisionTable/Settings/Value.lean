/-! # Values of a configuration

What a configuration file or an environment variable says, before it is known which types are
wanted. Later layers of a configuration go over earlier ones: maps are merged name by name,
and any other value takes the place of the one below.
-/

namespace DecisionTable

/-- A value of a configuration. Fractions are told apart from the rest, but no setting takes
    one. -/
inductive Setting where
  | null
  | bool (value : Bool)
  | integer (n : Int)
  | fraction
  | text (s : String)
  | list (items : List Setting)
  | map (entries : List (String × Setting))
  deriving Inhabited, Repr

namespace Setting

/-- The value of the first entry of a name. -/
def find? (key : String) : List (String × Setting) → Option Setting
  | [] => none
  | (k, v) :: rest => if k = key then some v else find? key rest

/-- Stores a value: in the place of the first entry of that name, or else at the end. -/
def put (key : String) (value : Setting) : List (String × Setting) → List (String × Setting)
  | [] => [(key, value)]
  | (k, v) :: rest => if k = key then (k, value) :: rest else (k, v) :: put key value rest

/-- A map of entries. A repeated name takes its last value. -/
def ofEntries (entries : List (String × Setting)) : Setting :=
  map (entries.foldl (fun kept entry => put entry.1 entry.2 kept) [])

mutual

/-- A value with a later one laid over it. -/
def overlay (below : Setting) : Setting → Setting
  | map entries =>
    match below with
    | map old => map (overlayEntries old entries)
    | _ => map entries
  | above => above

/-- Entries with later ones laid over them. -/
def overlayEntries (below : List (String × Setting)) :
    List (String × Setting) → List (String × Setting)
  | [] => below
  | (key, value) :: rest =>
    let merged := match find? key below with
      | some old => overlay old value
      | none => value
    overlayEntries (put key merged below) rest

end

/-- A value under a path of names, such as `engine.max-restarts`. -/
def nested (value : Setting) : List String → Setting
  | [] => value
  | key :: rest => map [(key, nested value rest)]

end Setting

end DecisionTable
