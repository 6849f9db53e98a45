import DecisionTable.Sheet.Compile

/-! # Placeholders in templates

Where a value goes is told by the template and the placeholder alone: to the first of the
places where the placeholder stands, or nowhere. The value is not looked at, and neither is
the text behind the place (`substitute_leftmost`). A search over the bytes of the texts finds
the same place, since in UTF-8 no character begins inside of another.
-/

namespace DecisionTable

/-- A pattern stands in a text right behind its front, and nowhere further left. -/
structure FirstAt (pattern text front behind : List Char) : Prop where
  split : text = front ++ pattern ++ behind
  least : ∀ front' behind', text = front' ++ pattern ++ behind' → front.length ≤ front'.length

theorem FirstAt.unique {pattern text front behind front' behind' : List Char}
    (first : FirstAt pattern text front behind) (first' : FirstAt pattern text front' behind') :
    front = front' ∧ behind = behind' := by
  have length := Nat.le_antisymm (first.least _ _ first'.split) (first'.least _ _ first.split)
  have split := first.split.symm.trans first'.split
  rw [List.append_assoc, List.append_assoc] at split
  obtain ⟨rfl, same⟩ := List.append_inj split length
  exact ⟨rfl, List.append_cancel_left same⟩

theorem firstAt_of_splitAtFirst? {pattern text front behind : List Char}
    (h : splitAtFirst? pattern text = some (front, behind)) :
    FirstAt pattern text front behind := by
  induction text generalizing front with
  | nil =>
      rw [splitAtFirst?] at h
      split at h
      case isTrue empty =>
        cases h
        exact ⟨by simp [List.isEmpty_iff.1 empty], fun _ _ _ => Nat.zero_le _⟩
      case isFalse => cases h
  | cons c rest ih =>
      rw [splitAtFirst?] at h
      split at h
      case isTrue here =>
        cases h
        obtain ⟨behind, split⟩ := List.isPrefixOf_iff_prefix.1 here
        refine ⟨?_, fun _ _ _ => Nat.zero_le _⟩
        rw [← split, List.drop_left, List.nil_append]
      case isFalse notHere =>
        obtain ⟨⟨front, behind⟩, found, eq⟩ := Option.map_eq_some_iff.1 h
        cases eq
        obtain ⟨split, least⟩ := ih found
        refine ⟨by rw [split]; rfl, fun front' behind' other => ?_⟩
        cases front' with
        | nil => exact absurd (List.isPrefixOf_iff_prefix.2 ⟨behind', other.symm⟩) notHere
        | cons c' front' =>
            cases other
            exact Nat.succ_le_succ (least front' behind' rfl)

/-- Where the pattern stands, the search finds a place. -/
theorem splitAtFirst?_ne_none (front pattern behind : List Char) :
    splitAtFirst? pattern (front ++ pattern ++ behind) ≠ none := by
  induction front with
  | nil =>
      cases text : [] ++ pattern ++ behind with
      | nil =>
          have empty : pattern = [] := (List.append_eq_nil_iff.1 text).1
          simp [splitAtFirst?, empty]
      | cons c rest =>
          have here : pattern.isPrefixOf (c :: rest) = true :=
            List.isPrefixOf_iff_prefix.2 ⟨behind, text⟩
          simp [splitAtFirst?, here]
  | cons c front ih =>
      rw [List.cons_append, List.cons_append, splitAtFirst?]
      split
      · exact Option.some_ne_none _
      · exact fun h => ih (Option.map_eq_none_iff.1 h)

theorem splitAtFirst?_eq_some_iff {pattern text front behind : List Char} :
    splitAtFirst? pattern text = some (front, behind) ↔ FirstAt pattern text front behind := by
  refine ⟨firstAt_of_splitAtFirst?, fun first => ?_⟩
  match found : splitAtFirst? pattern text with
  | none => exact absurd (first.split ▸ found) (splitAtFirst?_ne_none front pattern behind)
  | some (front', behind') =>
      obtain ⟨rfl, rfl⟩ := (firstAt_of_splitAtFirst? found).unique first
      rfl

theorem splitAtFirst?_eq_none_iff {pattern text : List Char} :
    splitAtFirst? pattern text = none ↔ ∀ front behind, text ≠ front ++ pattern ++ behind := by
  refine ⟨fun none front behind split => ?_, fun absent => ?_⟩
  · exact splitAtFirst?_ne_none front pattern behind (split ▸ none)
  · match found : splitAtFirst? pattern text with
    | none => rfl
    | some (front, behind) =>
        exact absurd (firstAt_of_splitAtFirst? found).split (absent front behind)

/-- A template with a value in the place of its first placeholder. A template without a
    placeholder is left as it is. -/
inductive FirstReplaced (template placeholder value : String) : String → Prop where
  | replaced {front behind : String} (split : template = front ++ placeholder ++ behind)
      (least : ∀ front' behind', template = front' ++ placeholder ++ behind' →
        front.length ≤ front'.length) :
      FirstReplaced template placeholder value (front ++ value ++ behind)
  | kept (absent : ∀ front behind, template ≠ front ++ placeholder ++ behind) :
      FirstReplaced template placeholder value template

/-- A text around a placeholder, as characters. -/
theorem eq_append_iff_toList {template front placeholder behind : String} :
    template = front ++ placeholder ++ behind ↔
      template.toList = front.toList ++ placeholder.toList ++ behind.toList := by
  rw [← String.toList_inj, String.toList_append, String.toList_append]

theorem firstAt_toList_iff {template front placeholder behind : String} :
    FirstAt placeholder.toList template.toList front.toList behind.toList ↔
      template = front ++ placeholder ++ behind ∧
        ∀ front' behind', template = front' ++ placeholder ++ behind' →
          front.length ≤ front'.length := by
  refine ⟨fun first => ⟨eq_append_iff_toList.2 first.split, fun front' behind' split => ?_⟩,
    fun ⟨split, least⟩ => ⟨eq_append_iff_toList.1 split, fun front' behind' split => ?_⟩⟩
  · exact first.least _ _ (eq_append_iff_toList.1 split)
  · have := least (String.ofList front') (String.ofList behind')
      (eq_append_iff_toList.2 (by simpa using split))
    rwa [String.length_ofList] at this

theorem split_of_splitAtFirst? {template placeholder : String} {front behind : List Char}
    (found : splitAtFirst? placeholder.toList template.toList = some (front, behind)) :
    template = String.ofList front ++ placeholder ++ String.ofList behind ∧
      ∀ front' behind', template = front' ++ placeholder ++ behind' →
        (String.ofList front).length ≤ front'.length := by
  rw [← firstAt_toList_iff, String.toList_ofList, String.toList_ofList]
  exact splitAtFirst?_eq_some_iff.1 found

theorem absent_of_splitAtFirst? {template placeholder : String}
    (ended : splitAtFirst? placeholder.toList template.toList = none) (front behind : String) :
    template ≠ front ++ placeholder ++ behind := by
  intro split
  exact splitAtFirst?_eq_none_iff.1 ended _ _ (eq_append_iff_toList.1 split)

/-- What a substitution gives is the template with its first placeholder replaced. -/
theorem substitute_eq_iff {template placeholder value result : String} :
    substitute template placeholder value = result ↔
      FirstReplaced template placeholder value result := by
  have places : FirstReplaced template placeholder value
      (substitute template placeholder value) := by
    rw [substitute]
    split
    case h_1 front behind found =>
      obtain ⟨split, least⟩ := split_of_splitAtFirst? found
      exact .replaced split least
    case h_2 ended => exact .kept (absent_of_splitAtFirst? ended)
  refine ⟨fun h => h ▸ places, fun h => ?_⟩
  cases h with
  | @replaced front behind split least =>
      rw [substitute, splitAtFirst?_eq_some_iff.2 (firstAt_toList_iff.2 ⟨split, least⟩)]
      simp
  | kept absent =>
      rw [substitute, splitAtFirst?_eq_none_iff.2 fun front behind split =>
        absent (String.ofList front) (String.ofList behind)
          (eq_append_iff_toList.2 (by simpa using split))]

/-! ## The place by bytes -/

/-- In UTF-8 the bytes of a text stand only where the text does: its first byte begins a
    character. -/
theorem exists_split_of_bytes {template placeholder : String} {front behind : ByteArray}
    (split : template.toByteArray = front ++ placeholder.toByteArray ++ behind)
    (some : placeholder ≠ "") :
    ∃ front' behind', template = front' ++ placeholder ++ behind' ∧
      front'.toByteArray = front := by
  have size := congrArg ByteArray.size split
  simp only [ByteArray.size_append, String.size_toByteArray] at size
  have first : 0 < placeholder.utf8ByteSize :=
    Nat.pos_of_ne_zero fun empty => some (String.utf8ByteSize_eq_zero_iff.1 empty)
  have inside : front.size < template.utf8ByteSize := by omega
  have boundary : String.Pos.Raw.IsValid template ⟨front.size⟩ := by
    refine String.Pos.Raw.isValid_iff_isUTF8FirstByte.2 (.inr ⟨inside, ?_⟩)
    have byte : template.getUTF8Byte ⟨front.size⟩ inside = placeholder.getUTF8Byte 0 first := by
      simp only [String.getUTF8Byte, split, ByteArray.append_assoc]
      simp [ByteArray.getElem_append_right, ByteArray.getElem_append_left, first]
    rw [byte]
    exact String.isUTF8FirstByte_getUTF8Byte_zero
  obtain ⟨front', rest, rfl, at_⟩ := String.Pos.Raw.isValid_iff_exists_append.1 boundary
  have same : front'.toByteArray = front := by
    rw [String.toByteArray_append, ByteArray.append_assoc] at split
    refine ByteArray.append_inj_left split ?_
    rw [String.size_toByteArray]
    exact (congrArg String.Pos.Raw.byteIdx at_).symm
  rw [String.toByteArray_append, same, ByteArray.append_assoc, ByteArray.append_right_inj,
    ← String.utf8Encode_toList, ← String.utf8Encode_toList] at split
  obtain ⟨behind', cut⟩ := List.isPrefix_of_utf8Encode_append_eq_utf8Encode _ split.symm
  refine ⟨front', String.ofList behind', ?_, same⟩
  rw [String.append_assoc, String.append_right_inj, ← String.toList_inj, ← cut,
    String.toList_append, String.toList_ofList]

/-- Of two fronts of a text the one with fewer characters has fewer bytes. -/
theorem utf8ByteSize_le_of_length_le {front front' behind behind' : String}
    (same : front ++ behind = front' ++ behind') (shorter : front.length ≤ front'.length) :
    front.utf8ByteSize ≤ front'.utf8ByteSize := by
  have characters := congrArg String.toList same
  rw [String.toList_append, String.toList_append] at characters
  have longer := List.prefix_append front'.toList behind'.toList
  rw [← characters] at longer
  obtain ⟨more, whole⟩ := List.prefix_of_prefix_length_le (List.prefix_append _ _) longer shorter
  have whole : front' = front ++ String.ofList more := by
    rw [← String.toList_inj, ← whole, String.toList_append, String.toList_ofList]
  rw [whole, String.utf8ByteSize_append]
  exact Nat.le_add_right _ _

/-- Each template is cut at the first of the places where the placeholder stands in it, by its
    characters and by its bytes, and all values are put into that cut. Without such a place the
    template is left as it is. -/
theorem substitute_leftmost (template placeholder : String) :
    (∃ front behind, template = front ++ placeholder ++ behind ∧
      (∀ front' behind', template = front' ++ placeholder ++ behind' →
        front.length ≤ front'.length) ∧
      (∀ front' behind', template.toByteArray = front' ++ placeholder.toByteArray ++ behind' →
        front.utf8ByteSize ≤ front'.size) ∧
      ∀ value, substitute template placeholder value = front ++ value ++ behind) ∨
    (∀ front behind, template ≠ front ++ placeholder ++ behind) ∧
      (∀ front behind, template.toByteArray ≠ front ++ placeholder.toByteArray ++ behind) ∧
      ∀ value, substitute template placeholder value = template := by
  cases found : splitAtFirst? placeholder.toList template.toList with
  | some parts =>
      obtain ⟨split, least⟩ := split_of_splitAtFirst? found
      refine .inl ⟨_, _, split, least, fun front behind bytes => ?_, fun value =>
        substitute_eq_iff.2 (.replaced split least)⟩
      by_cases empty : placeholder = ""
      · have none := least "" template (by simp [empty])
        rw [String.length_empty, Nat.le_zero, String.length_eq_zero_iff] at none
        rw [none, String.utf8ByteSize_empty]
        exact Nat.zero_le _
      · obtain ⟨front, behind, other, rfl⟩ := exists_split_of_bytes bytes empty
        rw [String.size_toByteArray]
        have same := split.symm.trans other
        rw [String.append_assoc, String.append_assoc] at same
        exact utf8ByteSize_le_of_length_le same (least _ _ other)
  | none =>
      have absent := absent_of_splitAtFirst? found
      refine .inr ⟨absent, fun front behind bytes => ?_, fun value =>
        substitute_eq_iff.2 (.kept absent)⟩
      have some : placeholder ≠ "" := by
        rintro rfl
        exact absent "" template (by simp)
      obtain ⟨front, behind, other, -⟩ := exists_split_of_bytes bytes some
      exact absent front behind other

/-- A placeholder that the value completes is left as it stands. -/
example : substitute "$$value" "$value" "value" = "$value" := by decide

end DecisionTable
