import DecisionTable.Json.Basic

/-! # Members of objects

What is found in an object after a change, and the order of its names. Storing keeps the names in
their order and adds at most its own at the end (`keys_insert`); removing keeps all others.
-/

namespace DecisionTable

namespace Members

variable {key key' : String} {value : Json} {members : Members}

theorem get?_insert (key key' : String) (value : Json) (members : Members) :
    get? key' (insert key value members) =
      if key = key' then some value else get? key' members := by
  induction members with
  | nil => rfl
  | cons member members ih =>
      obtain ⟨k, v⟩ := member
      rw [insert]
      split
      case isTrue same => simp only [get?, same]; split <;> rfl
      case isFalse differ =>
        rw [get?, get?, ih]
        grind

theorem insert_insert (key : String) (value value' : Json) (members : Members) :
    insert key value' (insert key value members) = insert key value' members := by
  induction members with
  | nil => simp [insert]
  | cons member members ih =>
      obtain ⟨k, v⟩ := member
      by_cases same : k = key
      · simp [insert, same]
      · simp [insert, same, ih]

/-- Storing what is there changes nothing. -/
theorem insert_of_get? (found : get? key members = some value) :
    insert key value members = members := by
  induction members with
  | nil => cases found
  | cons member members ih =>
      obtain ⟨k, v⟩ := member
      rw [get?] at found
      rw [insert]
      split at found
      case isTrue same => rw [if_pos same, Option.some.inj found]
      case isFalse differ => rw [if_neg differ, ih found]

theorem keys_cons (member : String × Json) (members : Members) :
    keys (member :: members) = member.1 :: keys members := rfl

theorem keys_insert (key : String) (value : Json) (members : Members) :
    keys (insert key value members) =
      if key ∈ keys members then keys members else keys members ++ [key] := by
  induction members with
  | nil => rfl
  | cons member members ih =>
      obtain ⟨k, v⟩ := member
      rw [insert]
      split
      case isTrue same => simp [keys_cons, same]
      case isFalse differ =>
        rw [keys_cons, ih, keys_cons]
        have other : key ≠ k := Ne.symm differ
        by_cases mem : key ∈ keys members <;> simp [mem, other]

theorem mem_keys_of_get? (found : get? key members = some value) : key ∈ keys members := by
  induction members with
  | nil => cases found
  | cons member members ih =>
      obtain ⟨k, v⟩ := member
      rw [get?] at found
      split at found
      case isTrue same => simp [keys_cons, same]
      case isFalse => exact List.mem_cons_of_mem _ (ih found)

theorem nodup_keys_insert (distinct : (keys members).Nodup) (key : String) (value : Json) :
    (keys (insert key value members)).Nodup := by
  rw [keys_insert]
  split
  case isTrue => exact distinct
  case isFalse absent =>
    refine List.nodup_append.2 ⟨distinct, by simp, fun k mem k' mem' same => ?_⟩
    obtain rfl := List.mem_singleton.1 mem'
    exact absent (same ▸ mem)

theorem erase_cons (key k : String) (value : Json) (members : Members) :
    erase key ((k, value) :: members) =
      if k = key then erase key members else (k, value) :: erase key members := by
  by_cases same : k = key <;> simp [erase, same]

theorem get?_erase (key key' : String) (members : Members) :
    get? key' (erase key members) = if key = key' then none else get? key' members := by
  induction members with
  | nil => simp [erase, get?]
  | cons member members ih =>
      obtain ⟨k, v⟩ := member
      rw [erase_cons, get?]
      split
      case isTrue same => rw [ih, same]; split <;> rfl
      case isFalse differ => rw [get?, ih]; grind

theorem erase_insert (differ : key ≠ key') (value : Json) (members : Members) :
    erase key' (insert key value members) = insert key value (erase key' members) := by
  induction members with
  | nil => rw [insert, erase_cons, if_neg differ]; rfl
  | cons member members ih =>
      obtain ⟨k, v⟩ := member
      rw [insert, erase_cons]
      by_cases same : k = key
      · have kept : k ≠ key' := same ▸ differ
        rw [if_pos same, if_neg kept, erase_cons, if_neg kept, insert, if_pos same]
      · rw [if_neg same, erase_cons, ih]
        split
        case isTrue => rfl
        case isFalse => rw [insert, if_neg same]

end Members

end DecisionTable
