import DecisionTable.Formula.FieldPath
import DecisionTable.Proofs.Json.Members

/-! # Assigning to a path

An assignment goes through objects to the one that holds the last segment of its path, and stores
the value there; each object on the way gets the changed one back in its place (`Stored`). So a
path is a lens into a fact (`FieldPath.assign_lens`): what is assigned is read, what stands
elsewhere is left, and only the last of two assignments is seen.
-/

namespace DecisionTable

namespace Json

/-- The value that segments lead to from a value. What is absent is null. -/
def descendant (value : Json) (walk : List String) : Json := walk.foldl child value

/-- The names of the members of an object, in order. -/
def keys? : Json → Option (List String)
  | object members => some (Members.keys members)
  | _ => none

theorem descendant_cons (value : Json) (segment : String) (walk : List String) :
    value.descendant (segment :: walk) = (value.child segment).descendant walk := rfl

theorem child_insert (key segment : String) (value : Json) (members : Members) :
    (object (Members.insert key value members)).child segment =
      if key = segment then value else (object members).child segment := by
  rw [child, Members.get?_insert]
  split <;> rfl

theorem child_of_get? {key : String} {value : Json} {members : Members}
    (found : Members.get? key members = some value) : (object members).child key = value := by
  rw [child, found]
  rfl

end Json

namespace FieldPath

/-- `Stored value key rest before after`: the second object is the first one with a value stored
    under a key and further segments, each of which but the last leads to an object. -/
inductive Stored (value : Json) : String → List String → Members → Members → Prop
  | last (key : String) (members : Members) :
      Stored value key [] members (Members.insert key value members)
  | inside {key next : String} {rest : List String} {members inner inner' : Members}
      (found : Members.get? key members = some (.object inner))
      (stored : Stored value next rest inner inner') :
      Stored value key (next :: rest) members (Members.insert key (.object inner') members)

theorem assignFrom_eq_ok_iff {walked : List String} {value : Json} {key : String}
    {rest : List String} {before after : Members} :
    assignFrom walked value key rest before = .ok after ↔ Stored value key rest before after := by
  constructor
  · intro assigned
    induction rest generalizing walked key before after with
    | nil =>
        cases assigned
        exact .last key before
    | cons next rest ih =>
        rw [assignFrom] at assigned
        split at assigned
        case h_1 inner found =>
          cases assignedInside : assignFrom (walked ++ [key]) value next rest inner with
          | error e => simp [assignedInside, Except.map] at assigned
          | ok inner' =>
              simp only [assignedInside, Except.map, Except.ok.injEq] at assigned
              exact assigned ▸ .inside found (ih assignedInside)
        all_goals cases assigned
  · intro stored
    induction stored generalizing walked with
    | last => rfl
    | inside found _ ih => simp [assignFrom, found, ih, Except.map]

theorem assign_eq_ok_iff {path : FieldPath} {value : Json} {fact after : Fact} :
    path.assign value fact = .ok after ↔ Stored value path.first path.rest fact after :=
  assignFrom_eq_ok_iff

/-- Reading goes from the fact as a value along all segments. -/
theorem read_eq_readFrom (path : FieldPath) (fact : Fact) :
    path.read fact = readFrom [] (.object fact) path.segments := rfl

theorem readFrom_object (walked : List String) (members : Members) (segment : String)
    (rest : List String) : readFrom walked (.object members) (segment :: rest) =
      readFrom (walked ++ [segment]) ((Json.object members).child segment) rest := rfl

namespace Stored

variable {value : Json} {key : String} {rest : List String} {before after : Members}

/-- What is stored is read. -/
theorem readFrom_self (stored : Stored value key rest before after) (walked : List String) :
    readFrom walked (.object after) (key :: rest) = .ok value := by
  induction stored generalizing walked with
  | last key members => rw [readFrom_object, Json.child_insert, if_pos rfl, readFrom]
  | inside found stored ih => rw [readFrom_object, Json.child_insert, if_pos rfl, ih]

/-- Segments that part from those of the change read what they read before. -/
theorem readFrom_other (stored : Stored value key rest before after) {other : List String}
    (apart : ¬ key :: rest <+: other) (apart' : ¬ other <+: key :: rest) (walked : List String) :
    readFrom walked (.object after) other = readFrom walked (.object before) other := by
  induction stored generalizing other walked with
  | last key members =>
      cases other with
      | nil => exact absurd List.nil_prefix apart'
      | cons segment other =>
          have differ : key ≠ segment := fun same => apart (by simp [same])
          rw [readFrom_object, readFrom_object, Json.child_insert, if_neg differ]
  | @inside key next rest members inner inner' found stored ih =>
      cases other with
      | nil => exact absurd List.nil_prefix apart'
      | cons segment other =>
          rw [readFrom_object, readFrom_object, Json.child_insert]
          split
          case isTrue same =>
            subst same
            rw [List.cons_prefix_cons, not_and] at apart apart'
            rw [Json.child_of_get? found, ih (apart rfl) (apart' rfl)]
          case isFalse => rfl

/-- The object that holds the last segment gets it at its end, if it is not there. -/
theorem keys_holder (stored : Stored value key rest before after) {holder : List String}
    {last : String} (path : holder ++ [last] = key :: rest) :
    ∃ names, ((Json.object before).descendant holder).keys? = some names ∧
      ((Json.object after).descendant holder).keys? =
        some (if last ∈ names then names else names ++ [last]) := by
  induction stored generalizing holder with
  | last key members =>
      obtain ⟨rfl, rfl⟩ : holder = [] ∧ last = key := by
        simpa [List.append_eq_cons_iff] using path
      exact ⟨_, rfl, congrArg some (Members.keys_insert last value members)⟩
  | @inside key next rest members inner inner' found stored ih =>
      cases holder with
      | nil => cases path
      | cons segment holder =>
          obtain ⟨rfl, behind⟩ := List.cons.inj path
          rw [Json.descendant_cons, Json.descendant_cons, Json.child_insert, if_pos rfl,
            Json.child_of_get? found]
          exact ih behind

/-- No other object outside of the stored value gets or loses a name. -/
theorem keys_other (stored : Stored value key rest before after) {walk : List String}
    (outside : ¬ key :: rest <+: walk) (other : ∀ last, walk ++ [last] ≠ key :: rest) :
    ((Json.object after).descendant walk).keys? = ((Json.object before).descendant walk).keys? := by
  induction stored generalizing walk with
  | last key members =>
      cases walk with
      | nil => exact absurd rfl (other key)
      | cons segment walk =>
          have differ : key ≠ segment := fun same => outside (by simp [same])
          rw [Json.descendant_cons, Json.descendant_cons, Json.child_insert, if_neg differ]
  | @inside key next rest members inner inner' found stored ih =>
      cases walk with
      | nil =>
          -- The object gets its member back under a name that it has.
          have present := Members.mem_keys_of_get? found
          exact congrArg some ((Members.keys_insert ..).trans (if_pos present))
      | cons segment walk =>
          rw [Json.descendant_cons, Json.descendant_cons, Json.child_insert]
          split
          case isTrue same =>
            subst same
            rw [List.cons_prefix_cons, not_and] at outside
            rw [Json.child_of_get? found]
            exact ih (outside rfl) fun last path => other last (congrArg (key :: ·) path)
          case isFalse => rfl

/-- Another value can be stored, and what was stored before makes no difference to it. -/
theorem again (stored : Stored value key rest before after) (value' : Json) :
    ∃ final, Stored value' key rest before final ∧ Stored value' key rest after final := by
  induction stored with
  | last key members =>
      refine ⟨_, .last key members, ?_⟩
      rw [← Members.insert_insert key value value' members]
      exact .last key _
  | @inside key next rest members inner inner' found stored ih =>
      obtain ⟨final, first, second⟩ := ih
      refine ⟨_, .inside found first, ?_⟩
      rw [← Members.insert_insert key (.object inner') (.object final) members]
      exact .inside (by rw [Members.get?_insert, if_pos rfl]) second

end Stored

/-- A path is a lens into a fact. Where a value can be assigned, it is what the path reads
    afterwards. Paths that part from it read what they read before, be it a value or an error. The
    object that holds the last segment gets it at its end if it is not there, and all other objects
    outside of the value keep their names in order. Assigning another value leaves the same fact as
    if it had been the only one. -/
theorem assign_lens {path : FieldPath} {value : Json} {fact after : Fact}
    (assigned : path.assign value fact = .ok after) :
    path.read after = .ok value ∧
    (∀ other : FieldPath, ¬ path.segments <+: other.segments →
      ¬ other.segments <+: path.segments → other.read after = other.read fact) ∧
    (∀ holder last, holder ++ [last] = path.segments →
      ∃ names, ((Json.object fact).descendant holder).keys? = some names ∧
        ((Json.object after).descendant holder).keys? =
          some (if last ∈ names then names else names ++ [last])) ∧
    (∀ walk, ¬ path.segments <+: walk → (∀ last, walk ++ [last] ≠ path.segments) →
      ((Json.object after).descendant walk).keys? = ((Json.object fact).descendant walk).keys?) ∧
    ∀ value', ∃ final, path.assign value' fact = .ok final ∧
      path.assign value' after = .ok final := by
  have stored := assign_eq_ok_iff.1 assigned
  refine ⟨stored.readFrom_self [], fun other apart apart' => ?_, fun holder last => ?_,
    fun walk => ?_, fun value' => ?_⟩
  · rw [read_eq_readFrom, read_eq_readFrom]
    exact stored.readFrom_other apart apart' []
  · exact stored.keys_holder
  · exact stored.keys_other
  · obtain ⟨final, first, second⟩ := stored.again value'
    exact ⟨final, assign_eq_ok_iff.2 first, assign_eq_ok_iff.2 second⟩

theorem assign_lens_nested :
    let lines : Json := .array [.object [("sku", .string "a")]]
    let fact : Fact := [("order", .object [("customer", .object [("name", .string "ann")]),
      ("lines", lines)]), ("note", .null)]
    let after : Fact := [("order", .object [("customer", .object [("name", .string "ann"),
      ("vip", .bool true)]), ("lines", lines)]), ("note", .null)]
    let path : FieldPath := ⟨"order", ["customer", "vip"]⟩
    let sku : FieldPath := ⟨"order", ["lines", "0", "sku"]⟩
    path.assign (.bool true) fact = .ok after ∧ path.read after = .ok (.bool true) ∧
      sku.read after = sku.read fact ∧
      ((Json.object after).descendant ["order"]).keys? =
        ((Json.object fact).descendant ["order"]).keys? ∧
      ∃ final, path.assign .null fact = .ok final ∧ path.assign .null after = .ok final := by
  intro lines fact after path sku
  have assigned : path.assign (.bool true) fact = .ok after := by rfl
  obtain ⟨read, others, -, keys, again⟩ := assign_lens assigned
  exact ⟨assigned, read, others sku (by decide) (by decide),
    keys ["order"] (by decide) (by simp [path, segments]), again .null⟩

end FieldPath

end DecisionTable
