import Mathlib
import Barogrid.Text.Blank

/-!
# What trimming and cutting a text come to

* `trimChars_eq_iff` -- a part without blanks is what **trimming** leaves of a text exactly if there are only
  blanks around it;
* `fields_intercalate`, `intercalate_fields` -- **cutting** at a separator undoes joining, and joining undoes
  cutting.
-/

namespace Barogrid.Text

variable {separator : Char} {cs core : List Char}

/-! ## 1. Blanks -/

/-- Nothing but blanks. -/
def Blank (cs : List Char) : Prop := ∀ c ∈ cs, isBlank c = true

/-- Trimming takes blanks off the front, and then off the end. -/
theorem trimChars_eq (cs : List Char) : trimChars cs = (cs.dropWhile isBlank).rdropWhile isBlank := rfl

theorem exists_padding (cs : List Char) :
    ∃ before after, Blank before ∧ Blank after ∧ cs = before ++ trimChars cs ++ after := by
  refine ⟨cs.takeWhile isBlank, (cs.dropWhile isBlank).rtakeWhile isBlank,
    fun c hc => List.mem_takeWhile_imp hc, fun c hc => List.mem_rtakeWhile_imp hc, ?_⟩
  rw [trimChars_eq, List.append_assoc, List.rdropWhile_append_rtakeWhile,
    List.takeWhile_append_dropWhile]

theorem trimChars_padded {before after : List Char} (hbefore : Blank before) (hafter : Blank after)
    (hcore : ∀ c ∈ core, isBlank c = false) : trimChars (before ++ core ++ after) = core := by
  have hend : (core ++ after).rdropWhile isBlank = core.rdropWhile isBlank := by
    unfold List.rdropWhile
    rw [List.reverse_append, List.dropWhile_append_of_pos fun c hc => hafter c (List.mem_reverse.mp hc)]
  rw [trimChars_eq, List.append_assoc, List.dropWhile_append_of_pos hbefore]
  cases core with
  | nil =>
    rw [List.nil_append, List.dropWhile_eq_nil_iff.mpr hafter]
    rfl
  | cons c cs =>
    rw [List.cons_append, List.dropWhile_cons_of_neg (by simp [hcore c List.mem_cons_self]),
      ← List.cons_append, hend, List.rdropWhile_eq_self_iff]
    intro hne
    simp [hcore _ (List.getLast_mem hne)]

/-- **A part without blanks is what trimming leaves exactly if there are only blanks around it.** -/
theorem trimChars_eq_iff (hcore : ∀ c ∈ core, isBlank c = false) :
    trimChars cs = core ↔
      ∃ before after, Blank before ∧ Blank after ∧ cs = before ++ core ++ after := by
  constructor
  · rintro rfl
    exact exists_padding cs
  · rintro ⟨before, after, hbefore, hafter, rfl⟩
    exact trimChars_padded hbefore hafter hcore

/-! ## 2. Fields -/

theorem fieldsOf_ne_nil (separator : Char) (cs : List Char) : fieldsOf separator cs ≠ [] := by
  cases cs with
  | nil => exact List.cons_ne_nil _ _
  | cons c cs =>
    rw [fieldsOf]
    split
    · exact List.cons_ne_nil _ _
    · split <;> exact List.cons_ne_nil _ _

/-- Cutting, one character at a time. -/
theorem fieldsOf_cons (separator c : Char) (cs : List Char) :
    ∃ first others, fieldsOf separator cs = first :: others ∧
      fieldsOf separator (c :: cs) =
        if c = separator then [] :: first :: others else (c :: first) :: others := by
  obtain ⟨first, others, hcut⟩ := List.exists_cons_of_ne_nil (fieldsOf_ne_nil separator cs)
  refine ⟨first, others, hcut, ?_⟩
  rw [fieldsOf, hcut]

theorem fieldsOf_eq_splitOn (separator : Char) (cs : List Char) :
    fieldsOf separator cs = cs.splitOn separator := by
  induction cs with
  | nil => rfl
  | cons c cs ih =>
    obtain ⟨first, others, hcut, hcons⟩ := fieldsOf_cons separator c cs
    rw [hcons, List.splitOn_eq_splitOnP, List.splitOnP_cons_eq_if_modifyHead,
      ← List.splitOn_eq_splitOnP, ← ih, hcut]
    by_cases hc : c = separator <;> simp [hc]

theorem not_mem_fieldsOf {field : List Char} (h : field ∈ fieldsOf separator cs) :
    separator ∉ field := by
  induction cs generalizing field with
  | nil => simp [List.mem_singleton.mp h]
  | cons c cs ih =>
    obtain ⟨first, others, hcut, hcons⟩ := fieldsOf_cons separator c cs
    rw [hcut] at ih
    rw [hcons] at h
    split at h
    · rcases List.mem_cons.mp h with rfl | h
      · exact List.not_mem_nil
      · exact ih h
    · rename_i hc
      rcases List.mem_cons.mp h with rfl | h
      · rw [List.mem_cons, not_or]
        exact ⟨fun heq => hc heq.symm, ih List.mem_cons_self⟩
      · exact ih (List.mem_cons_of_mem _ h)

/-- **Cutting undoes joining**, if no part has a separator in it. -/
theorem fields_intercalate {parts : List String} (hne : parts ≠ [])
    (hparts : ∀ part ∈ parts, separator ∉ part.toList) :
    fields separator ((String.singleton separator).intercalate parts) = parts := by
  unfold fields
  rw [fieldsOf_eq_splitOn, String.toList_intercalate, String.toList_singleton,
    List.splitOn_intercalate]
  · simp
  · simpa using hparts
  · simpa using hne

/-- **Joining undoes cutting.** -/
theorem intercalate_fields (separator : Char) (s : String) :
    (String.singleton separator).intercalate (fields separator s) = s := by
  rw [← String.toList_inj, String.toList_intercalate, String.toList_singleton]
  unfold fields
  rw [fieldsOf_eq_splitOn]
  simp [Function.comp_def, List.intercalate_splitOn]

/-- The fields are the parts between separators. -/
theorem not_mem_fields {s field : String} (h : field ∈ fields separator s) :
    separator ∉ field.toList := by
  obtain ⟨cs, hcs, rfl⟩ := List.mem_map.mp h
  rw [String.toList_ofList]
  exact not_mem_fieldsOf hcs

end Barogrid.Text
