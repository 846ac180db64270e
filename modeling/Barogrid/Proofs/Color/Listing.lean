import Mathlib
import Barogrid.Proofs.Color.Reading
import Barogrid.Proofs.Yields

/-!
# Lists of colors are read as they are printed

Colors are separated by commas, and fields with nothing but blanks do not count.  A printed color has no comma
in it and is none of these fields, so that the cutting finds the colors again, in their order.

* `Printed.documented` -- a printed color is one by the description, however it is spelled;
* `parseList_eq_error_iff` -- **reading fails at the first field that is refused**, and only there;
* `Listed.parseList_eq_ok` -- **a printed list is read back.**
-/

namespace Barogrid.Color

open Text (Blank isBlank)

variable {field s : String} {fields : List String} {c : Color} {colors : List Color}

/-! ## 1. Printed colors -/

/-- The text is the color as it is printed, with or without its number sign, with small letters or
capital ones, and with blanks around it. -/
def Printed (s : String) (c : Color) : Prop :=
  ∃ before after sign digits, Blank before ∧ Blank after ∧ (sign = [] ∨ sign = ['#']) ∧
    c.hex.toList = '#' :: digits.map Char.toLower ∧ s.toList = before ++ (sign ++ digits) ++ after

theorem pair_of_printed {cs : List Char} {v : UInt8} (h : cs.map Char.toLower = channelText v) :
    Pair cs v := by
  have hsmall := v.toNat_lt
  obtain ⟨a, rest, rfl, ha, hrest⟩ := List.map_eq_cons_iff.mp h
  obtain ⟨b, last, rfl, hb, hlast⟩ := List.map_eq_cons_iff.mp hrest
  rw [List.map_eq_nil_iff.mp hlast]
  exact ⟨a, b, _, _, rfl, ⟨by omega, ha⟩, ⟨by omega, hb⟩, by omega⟩

/-- A printed color is one by the description. -/
theorem Printed.documented (h : Printed s c) : Documented s c := by
  obtain ⟨before, after, sign, digits, hbefore, hafter, hsign, hdigits, htext⟩ := h
  obtain ⟨n, hn, rfl⟩ : ∃ n, n ≤ 1 ∧ sign = List.replicate n '#' := by
    rcases hsign with rfl | rfl
    · exact ⟨0, by omega, rfl⟩
    · exact ⟨1, le_rfl, rfl⟩
  unfold hex at hdigits
  rw [String.toList_ofList, List.cons_append, List.cons_append, List.cons_inj_right] at hdigits
  obtain ⟨rg, b, rfl, hrg, hb⟩ := List.map_eq_append_iff.mp hdigits.symm
  obtain ⟨r, g, rfl, hr, hg⟩ := List.map_eq_append_iff.mp hrg
  exact ⟨before, after, n, _, hbefore, hafter, hn,
    Or.inl ⟨r, g, b, rfl, pair_of_printed hr, pair_of_printed hg, pair_of_printed hb⟩, htext⟩

theorem Printed.parse_eq_ok (h : Printed s c) : parse s = .ok c :=
  parse_eq_ok_iff.mpr h.documented.tolerated

theorem Printed.not_mem (h : Printed s c) : ',' ∉ s.toList := by
  intro hmem
  rcases h.documented.mem_cases hmem with hblank | hsign | ⟨n, hn⟩
  · exact absurd hblank (by decide)
  · exact absurd hsign (by decide)
  · exact hn.apart.2.2.2 rfl

/-! ## 2. Fields -/

theorem isBlankText_iff : isBlankText s = true ↔ Blank s.toList := List.all_eq_true

theorem parse_eq_error {e : Failure} (h : parse s = .error e) : e = .color s := by
  rcases (parse_cases s) with ⟨c, hc⟩ | hrefused
  · rw [hc] at h
    cases h
  · rw [hrefused] at h
    exact (Except.error.inj h).symm

/-- There is no color in blanks. -/
theorem parse_of_blank (h : Blank s.toList) : parse s = .error (.color s) := by
  have htrim : Text.trimChars s.toList = [] :=
    (Text.trimChars_eq_iff (by simp)).mpr ⟨s.toList, [], h, by simp [Blank], by simp⟩
  unfold parse bareDigits
  rw [htrim]
  rfl

theorem not_blank_of_parse (h : parse s = .ok c) : ¬ Blank s.toList := by
  intro hblank
  rw [parse_of_blank hblank] at h
  cases h

/-- The field counts, and it is no color. -/
def Refused (field : String) : Prop := ¬ Blank field.toList ∧ ∀ c, parse field ≠ .ok c

theorem refused_iff : (!isBlankText field && !(parse field).isOk) = true ↔ Refused field := by
  rw [Bool.and_eq_true, Bool.not_eq_true', Bool.eq_false_iff, ne_eq, isBlankText_iff]
  refine and_congr_right fun _ => ?_
  cases parse field <;> simp [Except.isOk, Except.toBool]

/-- **Reading a list fails at the first field that is refused.** -/
theorem parseList_eq_error_iff {e : Failure} : parseList s = .error e ↔
    ∃ before field after, Text.fields ',' s = before ++ field :: after ∧
      (∀ earlier ∈ before, ¬ Refused earlier) ∧ Refused field ∧ e = .color field := by
  unfold parseList
  rw [mapM_eq_error_iff]
  simp only [List.find?_filter, Bool.decide_and, Bool.decide_eq_true, List.find?_eq_some_iff_append]
  constructor
  · rintro ⟨field, ⟨hrefused, before, after, hfields, hbefore⟩, herror⟩
    refine ⟨before, field, after, hfields, fun earlier hmem hearlier => ?_, refused_iff.mp hrefused,
      parse_eq_error herror⟩
    simpa [refused_iff.mpr hearlier] using hbefore earlier hmem
  · rintro ⟨before, field, after, hfields, hbefore, hrefused, rfl⟩
    refine ⟨field, ⟨refused_iff.mpr hrefused, before, after, hfields, fun earlier hmem => ?_⟩, ?_⟩
    · rw [Bool.not_eq_true', Bool.eq_false_iff]
      exact fun hearlier => hbefore earlier hmem (refused_iff.mp hearlier)
    · exact (parse_cases field).resolve_left fun ⟨c, hc⟩ => hrefused.2 c hc

/-! ## 3. Printed lists -/

/-- The fields are the colors as they are printed, in this order, with any number of blank fields between
them. -/
inductive Listed : List String → List Color → Prop
  | nil : Listed [] []
  | blank {field : String} {fields : List String} {colors : List Color} :
    Blank field.toList → Listed fields colors → Listed (field :: fields) colors
  | color {field : String} {c : Color} {fields : List String} {colors : List Color} :
    Printed field c → Listed fields colors → Listed (field :: fields) (c :: colors)

theorem Listed.not_mem (h : Listed fields colors) : ∀ field ∈ fields, ',' ∉ field.toList := by
  induction h with
  | nil => simp
  | blank hblank _ ih =>
    refine List.forall_mem_cons.mpr ⟨fun hmem => ?_, ih⟩
    exact absurd (hblank _ hmem) (by decide)
  | color hprinted _ ih => exact List.forall_mem_cons.mpr ⟨hprinted.not_mem, ih⟩

theorem Listed.mapM_parse (h : Listed fields colors) :
    (fields.filter fun field => !isBlankText field).mapM parse = .ok colors := by
  induction h with
  | nil => rfl
  | blank hblank _ ih => rwa [List.filter_cons_of_neg (by simp [isBlankText_iff.mpr hblank])]
  | @color field c _ _ hprinted _ ih =>
    have hparse := hprinted.parse_eq_ok
    have hcounts : isBlankText field = false := by
      rw [Bool.eq_false_iff, ne_eq, isBlankText_iff]
      exact not_blank_of_parse hparse
    rw [List.filter_cons_of_pos (by simp [hcounts]), List.mapM_cons, hparse, ih]
    rfl

/-- **A printed list is read back.** -/
theorem Listed.parseList_eq_ok (h : Listed fields colors) :
    parseList (",".intercalate fields) = .ok colors := by
  unfold parseList
  rcases eq_or_ne fields [] with rfl | hne
  · cases h
    rfl
  · have hcut := Text.fields_intercalate hne h.not_mem
    rw [show String.singleton ',' = "," from rfl] at hcut
    rw [hcut]
    exact h.mapM_parse

/-- **A printed list of colors is read back**, however the colors are spelled and wherever there are
blank fields.  Cut at its commas, any text fails at the first field that is not blank and no color, and
only if there is one. -/
theorem parsing_inverts_printing :
    (∀ fields colors, Listed fields colors → parseList (",".intercalate fields) = .ok colors) ∧
    ∀ s, ",".intercalate (Text.fields ',' s) = s ∧ (∀ field ∈ Text.fields ',' s, ',' ∉ field.toList) ∧
      ∀ e, parseList s = .error e ↔
        ∃ before field after, Text.fields ',' s = before ++ field :: after ∧
          (∀ earlier ∈ before, ¬ Refused earlier) ∧ Refused field ∧ e = .color field :=
  ⟨fun _ _ h => h.parseList_eq_ok, fun s => ⟨Text.intercalate_fields ',' s,
    fun _ h => Text.not_mem_fields h, fun _ => parseList_eq_error_iff⟩⟩

theorem mixed_spelling_is_read :
    Listed [" #00fF00 ", "", "ff0000\t", " "] [⟨0, 255, 0⟩, ⟨255, 0, 0⟩] ∧
    parseList " #00fF00 ,,ff0000\t, " = .ok [⟨0, 255, 0⟩, ⟨255, 0, 0⟩] ∧
    ∃ before field after, Text.fields ',' "#0000ff, ,blue,red" = before ++ field :: after ∧
      (∀ earlier ∈ before, ¬ Refused earlier) ∧ Refused field ∧ Failure.color "blue" = .color field := by
  have hlisted : Listed [" #00fF00 ", "", "ff0000\t", " "] [⟨0, 255, 0⟩, ⟨255, 0, 0⟩] := by
    have hblank : ∀ text : List Char, text.all isBlank = true → Blank text := fun _ => List.all_eq_true.mp
    have hgreen : Printed " #00fF00 " ⟨0, 255, 0⟩ := ⟨[' '], [' '], ['#'], "00fF00".toList,
      hblank _ (by rfl), hblank _ (by rfl), Or.inr rfl, by rfl, by rfl⟩
    have hred : Printed "ff0000\t" ⟨255, 0, 0⟩ := ⟨[], ['\t'], [], "ff0000".toList,
      hblank _ (by rfl), hblank _ (by rfl), Or.inl rfl, by rfl, by rfl⟩
    exact .color hgreen (.blank (hblank _ (by rfl)) (.color hred (.blank (hblank _ (by rfl)) .nil)))
  obtain ⟨hread, hrefused⟩ := parsing_inverts_printing
  exact ⟨hlisted, hread _ _ hlisted, ((hrefused "#0000ff, ,blue,red").2.2 (.color "blue")).mp (by rfl)⟩

end Barogrid.Color
