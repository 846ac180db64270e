import Mathlib
import Barogrid.Color
import Barogrid.Proofs.Text

/-!
# Which texts are colors

By its description a color is written with six hexadecimal digits or with three, with or without a number
sign in front, and with blanks around it.  The program reads every such text as it should, but it takes
liberties:

* any count of number signs is passed over;
* a plus sign is taken for the first digit of a channel of two digits, with the value zero.

The description is `Documented`, what is read is `Tolerated`, and a text that gives occasion for one of the
liberties is `Loose`.

* `parse_eq_ok_iff` -- what is read;
* `tolerated_iff_documented` -- **no more than the description**, but for the loose texts;
* `reading_follows_description` -- what this means for every text.
-/

namespace Barogrid.Color

open Text (Blank isBlank trimChars)

variable {a b : Char} {cs digits : List Char} {c : Color} {v : UInt8} {n : Nat} {s : String}

/-! ## 1. Digits -/

/-- The character is the hexadecimal digit of the number, as a small letter or as a capital one. -/
def Digit (a : Char) (n : Nat) : Prop := n < 16 ∧ a.toLower = hexDigit n

instance (a : Char) (n : Nat) : Decidable (Digit a n) := inferInstanceAs (Decidable (_ ∧ _))

/-- What holds of the first 128 characters can be found out by trying them. -/
theorem forall_ascii {P : Char → Prop} (h : ∀ k < 128, P (Char.ofNat k)) (a : Char)
    (ha : a.toNat < 128) : P a := by
  have hP := h a.toNat ha
  rwa [Char.ofNat_toNat] at hP

theorem toNat_lt_of_isHexDigit (h : isHexDigit a = true) : a.toNat < 128 := by
  simp only [isHexDigit, Char.isDigit, Bool.or_eq_true, Bool.and_eq_true, decide_eq_true_eq,
    ge_iff_le, Char.le_def, UInt32.le_iff_toNat_le] at h
  rcases h with (⟨-, h⟩ | ⟨-, h⟩) | ⟨-, h⟩
  · exact lt_of_le_of_lt h (by decide)
  · exact lt_of_le_of_lt h (by decide)
  · exact lt_of_le_of_lt h (by decide)

/-- A capital letter comes before its small one. -/
theorem toNat_le_toLower (a : Char) : a.toNat ≤ a.toLower.toNat := by
  unfold Char.toLower
  split
  · rename_i h
    have hcapital : a.val.toNat ≤ 90 := UInt32.le_iff_toNat_le.mp h.2
    show a.val.toNat ≤ (a.val + 32).toNat
    rw [UInt32.toNat_add]
    show a.val.toNat ≤ (a.val.toNat + 32) % 4294967296
    omega
  · exact le_rfl

theorem toNat_lt_of_digit (h : Digit a n) : a.toNat < 128 := by
  have hascii : ∀ n < 16, (hexDigit n).toNat < 128 := by decide
  refine (toNat_le_toLower a).trans_lt ?_
  rw [h.2]
  exact hascii n h.1

theorem digit_iff : Digit a n ↔ isHexDigit a = true ∧ Decimal.digitValue a = n := by
  constructor
  · intro h
    exact forall_ascii (P := fun a => ∀ n < 16, Digit a n →
      isHexDigit a = true ∧ Decimal.digitValue a = n) (by decide) a (toNat_lt_of_digit h) n h.1 h
  · rintro ⟨hhex, rfl⟩
    exact forall_ascii (P := fun a => isHexDigit a = true → Digit a (Decimal.digitValue a))
      (by decide) a (toNat_lt_of_isHexDigit hhex) hhex

/-- Digits are none of the characters that have a meaning of their own in a list of colors. -/
theorem Digit.apart (h : Digit a n) :
    isBlank a = false ∧ a ≠ '#' ∧ a ≠ '+' ∧ a ≠ ',' :=
  forall_ascii (P := fun a => isHexDigit a = true → isBlank a = false ∧ a ≠ '#' ∧ a ≠ '+' ∧ a ≠ ',')
    (by decide) a (toNat_lt_of_digit h) (digit_iff.mp h).1

/-! ## 2. Channels -/

/-- A channel in two digits. -/
def Pair (cs : List Char) (v : UInt8) : Prop :=
  ∃ a b m n, cs = [a, b] ∧ Digit a m ∧ Digit b n ∧ v.toNat = 16 * m + n

/-- A channel in one digit, which counts twice. -/
def Single (cs : List Char) (v : UInt8) : Prop := ∃ a n, cs = [a] ∧ Digit a n ∧ v.toNat = 17 * n

/-- A channel in two digits, or in a plus sign and a digit. -/
def LoosePair (cs : List Char) (v : UInt8) : Prop :=
  Pair cs v ∨ ∃ b n, cs = ['+', b] ∧ Digit b n ∧ v.toNat = n

theorem toNat_ofNat_pair {m : Nat} (hm : m < 16) (hn : n < 16) :
    (UInt8.ofNat (16 * m + n)).toNat = 16 * m + n :=
  UInt8.toNat_ofNat_of_lt' (show 16 * m + n < 256 by omega)

theorem loosePair_of_readPair? (h : readPair? a b = some v) : LoosePair [a, b] v := by
  unfold readPair? at h
  split at h
  · cases h
  rename_i hb
  have hb : Digit b (Decimal.digitValue b) := digit_iff.mpr ⟨by simpa using hb, rfl⟩
  split at h
  · rename_i hplus
    cases h
    refine Or.inr ⟨b, _, by rw [hplus], hb, ?_⟩
    simpa using toNat_ofNat_pair (m := 0) (by decide) hb.1
  split at h
  · rename_i ha
    have ha : Digit a (Decimal.digitValue a) := digit_iff.mpr ⟨ha, rfl⟩
    cases h
    exact Or.inl ⟨a, b, _, _, rfl, ha, hb, toNat_ofNat_pair ha.1 hb.1⟩
  · cases h

theorem LoosePair.exists_readPair? (h : LoosePair cs v) :
    ∃ a b, cs = [a, b] ∧ readPair? a b = some v := by
  rcases h with ⟨a, b, m, n, rfl, ha, hb, hv⟩ | ⟨b, n, rfl, hb, hv⟩
  · obtain ⟨hahex, rfl⟩ := digit_iff.mp ha
    obtain ⟨hbhex, rfl⟩ := digit_iff.mp hb
    exact ⟨a, b, rfl, by simp [readPair?, hahex, hbhex, ha.apart.2.2.1, ← hv]⟩
  · obtain ⟨hbhex, rfl⟩ := digit_iff.mp hb
    exact ⟨'+', b, rfl, by simp [readPair?, hbhex, ← hv]⟩

theorem single_of_readSingle? (h : readSingle? a = some v) : Single [a] v := by
  unfold readSingle? at h
  split at h
  · rename_i ha
    have ha : Digit a (Decimal.digitValue a) := digit_iff.mpr ⟨ha, rfl⟩
    have hsmall := ha.1
    cases h
    exact ⟨a, _, rfl, ha, UInt8.toNat_ofNat_of_lt' (show _ < 256 by omega)⟩
  · cases h

theorem Single.exists_readSingle? (h : Single cs v) : ∃ a, cs = [a] ∧ readSingle? a = some v := by
  obtain ⟨a, n, rfl, ha, hv⟩ := h
  obtain ⟨hhex, rfl⟩ := digit_iff.mp ha
  exact ⟨a, rfl, by simp [readSingle?, hhex, ← hv]⟩

/-- The three channels of a color, one after the other. -/
def Channels (channel : List Char → UInt8 → Prop) (cs : List Char) (c : Color) : Prop :=
  ∃ r g b, cs = r ++ g ++ b ∧ channel r c.red ∧ channel g c.green ∧ channel b c.blue

/-- The channels of a color, all in two characters or all in one. -/
def Digits (pair : List Char → UInt8 → Prop) (cs : List Char) (c : Color) : Prop :=
  Channels pair cs c ∨ Channels Single cs c

/-- **What is read as the digits of a color.** -/
theorem readChannels?_eq_some_iff : readChannels? cs = some c ↔ Digits LoosePair cs c := by
  obtain ⟨red, green, blue⟩ := c
  constructor
  · intro h
    unfold readChannels? at h
    split at h
    · simp only [Option.bind_eq_bind, Option.bind_eq_some_iff, Option.pure_def, Option.some.injEq,
        Color.mk.injEq] at h
      obtain ⟨_, hr, _, hg, _, hb, rfl, rfl, rfl⟩ := h
      exact Or.inl ⟨_, _, _, rfl, loosePair_of_readPair? hr, loosePair_of_readPair? hg,
        loosePair_of_readPair? hb⟩
    · simp only [Option.bind_eq_bind, Option.bind_eq_some_iff, Option.pure_def, Option.some.injEq,
        Color.mk.injEq] at h
      obtain ⟨_, hr, _, hg, _, hb, rfl, rfl, rfl⟩ := h
      exact Or.inr ⟨_, _, _, rfl, single_of_readSingle? hr, single_of_readSingle? hg,
        single_of_readSingle? hb⟩
    · cases h
  · rintro (⟨r, g, b, rfl, hr, hg, hb⟩ | ⟨r, g, b, rfl, hr, hg, hb⟩)
    · obtain ⟨_, _, rfl, hred⟩ := hr.exists_readPair?
      obtain ⟨_, _, rfl, hgreen⟩ := hg.exists_readPair?
      obtain ⟨_, _, rfl, hblue⟩ := hb.exists_readPair?
      simp [readChannels?, hred, hgreen, hblue]
    · obtain ⟨_, rfl, hred⟩ := hr.exists_readSingle?
      obtain ⟨_, rfl, hgreen⟩ := hg.exists_readSingle?
      obtain ⟨_, rfl, hblue⟩ := hb.exists_readSingle?
      simp [readChannels?, hred, hgreen, hblue]

/-- What is true of the characters of every channel is true of those of the color. -/
theorem Digits.forall_mem {pair : List Char → UInt8 → Prop} {P : Char → Prop} (h : Digits pair cs c)
    (hpair : ∀ {cs v}, pair cs v → ∀ a ∈ cs, P a) (hsingle : ∀ {a n}, Digit a n → P a) :
    ∀ a ∈ cs, P a := by
  have hone : ∀ {cs v}, Single cs v → ∀ a ∈ cs, P a := by
    rintro _ _ ⟨a, n, rfl, ha, -⟩
    simpa using hsingle ha
  rcases h with ⟨r, g, b, rfl, hr, hg, hb⟩ | ⟨r, g, b, rfl, hr, hg, hb⟩
  · simp only [List.forall_mem_append]
    exact ⟨⟨hpair hr, hpair hg⟩, hpair hb⟩
  · simp only [List.forall_mem_append]
    exact ⟨⟨hone hr, hone hg⟩, hone hb⟩

theorem Pair.exists_digit (h : Pair cs v) : ∀ a ∈ cs, ∃ n, Digit a n := by
  obtain ⟨a, b, m, n, rfl, ha, hb, -⟩ := h
  simpa using ⟨⟨m, ha⟩, ⟨n, hb⟩⟩

theorem Digits.exists_digit (h : Digits Pair cs c) : ∀ a ∈ cs, ∃ n, Digit a n :=
  h.forall_mem Pair.exists_digit fun ha => ⟨_, ha⟩

theorem Digits.loosen (h : Digits Pair cs c) : Digits LoosePair cs c :=
  h.imp_left fun ⟨r, g, b, hcs, hr, hg, hb⟩ => ⟨r, g, b, hcs, Or.inl hr, Or.inl hg, Or.inl hb⟩

/-- Without a plus sign all first digits are digits. -/
theorem Digits.pair_of_not_mem (h : Digits LoosePair cs c) (hplus : '+' ∉ cs) : Digits Pair cs c := by
  have hpair : ∀ {cs v}, LoosePair cs v → '+' ∉ cs → Pair cs v := by
    rintro _ _ (hpair | ⟨b, n, rfl, -⟩) hplus
    · exact hpair
    · exact absurd List.mem_cons_self hplus
  refine h.imp_left ?_
  rintro ⟨r, g, b, rfl, hr, hg, hb⟩
  simp only [List.mem_append, not_or] at hplus
  exact ⟨r, g, b, rfl, hpair hr hplus.1.1, hpair hg hplus.1.2, hpair hb hplus.2⟩

/-- No character of the channels is taken for a blank or a number sign. -/
theorem Digits.apart (h : Digits LoosePair cs c) : ∀ a ∈ cs, isBlank a = false ∧ a ≠ '#' := by
  refine h.forall_mem (fun {cs v} hpair => ?_) fun ha => ⟨ha.apart.1, ha.apart.2.1⟩
  rcases hpair with hpair | ⟨b, n, rfl, hb, -⟩
  · intro a ha
    obtain ⟨n, ha⟩ := hpair.exists_digit a ha
    exact ⟨ha.apart.1, ha.apart.2.1⟩
  · simpa using ⟨by decide, hb.apart.1, hb.apart.2.1⟩

/-! ## 3. Texts -/

/-- The text is the channels of a color, with an allowed number of number signs in front of them and with
blanks around all. -/
def Written (signs : Nat → Prop) (pair : List Char → UInt8 → Prop) (s : String) (c : Color) : Prop :=
  ∃ before after n digits, Blank before ∧ Blank after ∧ signs n ∧ Digits pair digits c ∧
    s.toList = before ++ (List.replicate n '#' ++ digits) ++ after

/-- **The description**: at most one number sign, and nothing but digits. -/
def Documented (s : String) (c : Color) : Prop := Written (· ≤ 1) Pair s c

/-- What is read: any count of number signs, and plus signs for first digits. -/
def Tolerated (s : String) (c : Color) : Prop := Written (fun _ => True) LoosePair s c

/-- The text has a plus sign, or it begins with two number signs. -/
def Loose (s : String) : Prop := '+' ∈ s.toList ∨ ['#', '#'] <+: trimChars s.toList

instance (s : String) : Decidable (Loose s) := inferInstanceAs (Decidable (_ ∨ _))

theorem Documented.tolerated (h : Documented s c) : Tolerated s c := by
  obtain ⟨before, after, n, digits, hbefore, hafter, -, hdigits, htext⟩ := h
  exact ⟨before, after, n, digits, hbefore, hafter, trivial, hdigits.loosen, htext⟩

/-- Between the blanks are the number signs and the digits. -/
theorem trimChars_eq_iff_padded (hdigits : Digits LoosePair digits c) :
    trimChars cs = List.replicate n '#' ++ digits ↔ ∃ before after, Blank before ∧ Blank after ∧
      cs = before ++ (List.replicate n '#' ++ digits) ++ after := by
  refine Text.trimChars_eq_iff fun a ha => ?_
  rcases List.mem_append.mp ha with ha | ha
  · rw [List.eq_of_mem_replicate ha]
    decide
  · exact (hdigits.apart a ha).1

/-- **What is read.** -/
theorem parse_eq_ok_iff : parse s = .ok c ↔ Tolerated s c := by
  have hparse : parse s = .ok c ↔ readChannels? (bareDigits s) = some c := by
    unfold parse
    cases readChannels? (bareDigits s) <;> simp
  rw [hparse, readChannels?_eq_some_iff]
  constructor
  · intro hdigits
    have hsigns : (trimChars s.toList).takeWhile (· = '#') =
        List.replicate ((trimChars s.toList).takeWhile (· = '#')).length '#' :=
      List.eq_replicate_of_mem fun a ha => by simpa using List.mem_takeWhile_imp ha
    have htext := (List.takeWhile_append_dropWhile (p := (· = '#')) (l := trimChars s.toList)).symm
    rw [hsigns] at htext
    obtain ⟨before, after, hbefore, hafter, hpadded⟩ := (trimChars_eq_iff_padded hdigits).mp htext
    exact ⟨before, after, _, _, hbefore, hafter, trivial, hdigits, hpadded⟩
  · rintro ⟨before, after, n, digits, hbefore, hafter, -, hdigits, htext⟩
    have htrim := (trimChars_eq_iff_padded hdigits).mpr ⟨before, after, hbefore, hafter, htext⟩
    have hbare : bareDigits s = digits := by
      unfold bareDigits
      rw [htrim, List.dropWhile_append_of_pos (by simp), List.dropWhile_eq_self_iff]
      intro hpos
      simpa using (hdigits.apart _ (List.getElem_mem hpos)).2
    rwa [hbare]

/-- What is not read is refused, and the refusal gives the text. -/
theorem parse_cases (s : String) : (∃ c, parse s = .ok c) ∨ parse s = .error (.color s) := by
  unfold parse
  cases readChannels? (bareDigits s) with
  | none => exact Or.inr rfl
  | some c => exact Or.inl ⟨c, rfl⟩

/-- The characters of a documented text. -/
theorem Documented.mem_cases (h : Documented s c) (ha : a ∈ s.toList) :
    isBlank a = true ∨ a = '#' ∨ ∃ n, Digit a n := by
  obtain ⟨before, after, n, digits, hbefore, hafter, -, hdigits, htext⟩ := h
  rw [htext, List.mem_append, List.mem_append, List.mem_append] at ha
  rcases ha with (ha | ha | ha) | ha
  · exact Or.inl (hbefore a ha)
  · exact Or.inr (Or.inl (List.eq_of_mem_replicate ha))
  · exact Or.inr (Or.inr (hdigits.exists_digit a ha))
  · exact Or.inl (hafter a ha)

theorem Documented.not_loose (h : Documented s c) : ¬ Loose s := by
  rintro (hplus | htwo)
  · rcases h.mem_cases hplus with hblank | hsign | ⟨n, hn⟩
    · exact absurd hblank (by decide)
    · exact absurd hsign (by decide)
    · exact hn.apart.2.2.1 rfl
  · obtain ⟨before, after, n, digits, hbefore, hafter, hn, hdigits, htext⟩ := h
    rw [(trimChars_eq_iff_padded hdigits.loosen).mpr ⟨before, after, hbefore, hafter, htext⟩] at htwo
    have hcount := htwo.sublist.count_le '#'
    have hnone : digits.count '#' = 0 :=
      List.count_eq_zero.mpr fun hmem => (hdigits.loosen.apart _ hmem).2 rfl
    rw [List.count_append, List.count_replicate_self, hnone] at hcount
    have htwice : ['#', '#'].count '#' = 2 := by decide
    have hn : n ≤ 1 := hn
    omega

/-- **No more than the description is read**, but for the loose texts. -/
theorem tolerated_iff_documented (hs : ¬ Loose s) : Tolerated s c ↔ Documented s c := by
  refine ⟨?_, Documented.tolerated⟩
  rintro ⟨before, after, n, digits, hbefore, hafter, -, hdigits, htext⟩
  have hplus : '+' ∉ digits := fun hmem => hs (Or.inl (by simp [htext, hmem]))
  have hsigns : n ≤ 1 := by
    by_contra hmany
    obtain ⟨k, rfl⟩ : ∃ k, n = 1 + 1 + k := ⟨n - 2, by omega⟩
    refine hs (Or.inr ⟨List.replicate k '#' ++ digits, ?_⟩)
    rw [(trimChars_eq_iff_padded hdigits).mpr ⟨before, after, hbefore, hafter, htext⟩,
      List.replicate_add, List.append_assoc]
    rfl
  exact ⟨before, after, n, digits, hbefore, hafter, hsigns, hdigits.pair_of_not_mem hplus, htext⟩

/-- **Reading follows the description**: a text denotes a color exactly if it is one by the description, or,
where it is loose, if the liberties make it one; then it is none by the description.  Every other text is
refused, and the refusal gives the text. -/
theorem reading_follows_description (s : String) :
    (∀ c, parse s = .ok c ↔ if Loose s then Tolerated s c else Documented s c) ∧
    ((∃ c, parse s = .ok c) ∨ parse s = .error (.color s)) ∧
    (Loose s → ∀ c, ¬ Documented s c) := by
  refine ⟨fun c => ?_, parse_cases s, fun hs c h => h.not_loose hs⟩
  rw [parse_eq_ok_iff]
  split
  · exact Iff.rfl
  · rename_i hs
    exact tolerated_iff_documented hs

theorem signs_are_passed_over : Loose "##f00" ∧ Loose "+f+f+f" ∧
    parse "##f00" = .ok ⟨255, 0, 0⟩ ∧ (∀ c, ¬ Documented "##f00" c) ∧
    parse "+f+f+f" = .ok ⟨15, 15, 15⟩ ∧ (∀ c, ¬ Documented "+f+f+f" c) ∧
    Documented " #FF5500\n" ⟨255, 85, 0⟩ := by
  have hsigns : Loose "##f00" := by decide
  have hplus : Loose "+f+f+f" := by decide
  have hplain : ¬ Loose " #FF5500\n" := by decide
  have hread := (reading_follows_description " #FF5500\n").1 ⟨255, 85, 0⟩
  rw [if_neg hplain] at hread
  exact ⟨hsigns, hplus, by rfl, (reading_follows_description "##f00").2.2 hsigns, by rfl,
    (reading_follows_description "+f+f+f").2.2 hplus, hread.mp (by rfl)⟩

end Barogrid.Color
