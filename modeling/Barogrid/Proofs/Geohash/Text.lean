import Mathlib
import Barogrid.Geohash.Hash

/-!
# Hashes as texts and as answers

A hash is written with one character to a digit, and a digit is five answers.  Both ways of writing
lose nothing:

* `Hash.parse_eq_ok_iff` -- a text denotes a hash exactly when it is the text of this hash;
* `Hash.exists_text_iff` -- the texts of hashes are the texts over the alphabet, the empty one apart;
* `Hash.text_lt_of_compare` -- hashes are ordered as their texts are;
* `answers_toDigits`, `toDigits_answers` -- rows of answers, by fives, and rows of digits are one and
  the same.
-/

namespace Barogrid.Geohash

/-! ## 1. Characters -/

theorem Digit.ofChar?_toChar (d : Digit) : Digit.ofChar? d.toChar = some d := by
  revert d
  decide

theorem Digit.toChar_mem (d : Digit) : d.toChar ∈ alphabet := by
  revert d
  decide

theorem Digit.toChar_strictMono : StrictMono Digit.toChar := by
  unfold StrictMono
  decide +kernel

theorem Digit.toChar_of_ofChar? {c : Char} {d : Digit} (h : Digit.ofChar? c = some d) :
    d.toChar = c := by
  unfold Digit.ofChar? at h
  obtain ⟨i, hi, rfl⟩ := Option.map_eq_some_iff.mp h
  have hget : alphabet[i] = c := by
    simpa using (List.finIdxOf?_eq_some_iff.mp hi).1
  unfold Digit.toChar
  rw [List.getD_eq_getElem _ _ (by exact i.isLt)]
  exact hget

theorem Digit.exists_toChar_iff {c : Char} : (∃ d : Digit, d.toChar = c) ↔ c ∈ alphabet := by
  constructor
  · rintro ⟨d, rfl⟩
    exact d.toChar_mem
  · intro h
    cases hc : Digit.ofChar? c with
    | some d => exact ⟨d, Digit.toChar_of_ofChar? hc⟩
    | none =>
      unfold Digit.ofChar? at hc
      rw [Option.map_eq_none_iff, List.finIdxOf?_eq_none_iff] at hc
      exact absurd h hc

namespace Hash

/-! ## 2. Texts -/

theorem readDigits_eq_ok_iff {cs : List Char} {ds : List Digit} :
    readDigits cs = .ok ds ↔ ds.map Digit.toChar = cs := by
  induction cs generalizing ds with
  | nil => cases ds <;> simp [readDigits]
  | cons c cs ih =>
    unfold readDigits
    cases hc : Digit.ofChar? c with
    | none =>
      simp only [reduceCtorEq, false_iff]
      rintro hds
      cases ds with
      | nil => simp at hds
      | cons d ds =>
        have hd : d.toChar = c := (List.cons.inj hds).1
        rw [← hd, Digit.ofChar?_toChar] at hc
        cases hc
    | some d =>
      have hd := Digit.toChar_of_ofChar? hc
      constructor
      · intro h
        cases hr : readDigits cs with
        | error c => simp [hr, Except.map] at h
        | ok ds' =>
          simp only [hr, Except.map, Except.ok.injEq] at h
          rw [← h, List.map_cons, hd, ih.mp hr]
      · intro h
        cases ds with
        | nil => simp at h
        | cons d' ds' =>
          obtain ⟨hd', hds'⟩ := List.cons.inj h
          have heq : d = d' := by
            rw [← hd', Digit.ofChar?_toChar] at hc
            exact (Option.some.inj hc).symm
          show (readDigits cs).map (d :: ·) = _
          rw [ih.mpr hds', heq]
          rfl

@[simp]
theorem toList_text (h : Hash) : h.text.toList = h.digits.map Digit.toChar := by
  simp [text]

@[simp]
theorem length_text (h : Hash) : h.text.length = h.length := by
  rw [← String.length_toList, toList_text, List.length_map, length]

/-- What stops the reading is the first character that is no digit. -/
theorem readDigits_eq_error_iff {cs : List Char} {c : Char} :
    readDigits cs = .error c ↔ cs.find? (fun c => c ∉ alphabet) = some c := by
  induction cs with
  | nil => simp [readDigits]
  | cons c' cs ih =>
    unfold readDigits
    cases hc : Digit.ofChar? c' with
    | none =>
      have hnot : c' ∉ alphabet := by
        rintro hmem
        obtain ⟨d, rfl⟩ := Digit.exists_toChar_iff.mpr hmem
        rw [Digit.ofChar?_toChar] at hc
        cases hc
      rw [List.find?_cons_of_pos (by simpa using hnot)]
      exact ⟨fun h => congrArg some (Except.error.inj h), fun h => congrArg _ (Option.some.inj h)⟩
    | some d =>
      have hmem : c' ∈ alphabet := Digit.exists_toChar_iff.mp ⟨d, Digit.toChar_of_ofChar? hc⟩
      rw [List.find?_cons_of_neg (by simpa using hmem), ← ih]
      show (readDigits cs).map (d :: ·) = _ ↔ _
      cases readDigits cs <;> simp [Except.map]

theorem parse_eq_badCharacter {s : String} {c : Char}
    (h : s.toList.find? (fun c => c ∉ alphabet) = some c) : parse s = .error (.badCharacter s c) := by
  unfold parse
  rw [readDigits_eq_error_iff.mpr h]

theorem map_toChar_lt {as bs : List Digit} (h : compare as bs = .lt) :
    as.map Digit.toChar < bs.map Digit.toChar := by
  induction as generalizing bs with
  | nil =>
    cases bs with
    | nil => cases h
    | cons b bs => exact List.nil_lt_cons _ _
  | cons a as ih =>
    cases bs with
    | nil => cases h
    | cons b bs =>
      rw [List.compare_cons_cons, Ordering.then_eq_lt] at h
      rw [List.map_cons, List.map_cons, List.cons_lt_cons_iff]
      rcases h with hlt | ⟨heq, hlt⟩
      · exact Or.inl (Digit.toChar_strictMono (compare_lt_iff_lt.mp hlt))
      · exact Or.inr ⟨congrArg Digit.toChar (compare_eq_iff_eq.mp heq), ih hlt⟩

/-- **Hashes are ordered as their texts are.** -/
theorem text_lt_of_compare {a b : Hash} (h : compare a b = .lt) : a.text < b.text := by
  rw [String.lt_iff, toList_text, toList_text]
  exact map_toChar_lt h

/-- **A text denotes a hash exactly when it is the text of this hash.** -/
theorem parse_eq_ok_iff {s : String} {h : Hash} : parse s = .ok h ↔ h.text = s := by
  have htext : h.text = s ↔ h.digits.map Digit.toChar = s.toList := by
    rw [← toList_text, String.toList_inj]
  rw [htext, ← readDigits_eq_ok_iff]
  unfold parse
  cases hr : readDigits s.toList with
  | error c => simp
  | ok ds =>
    cases ds with
    | nil =>
      have := h.nonempty
      simp only [reduceCtorEq, false_iff, Except.ok.injEq]
      exact fun e => this e.symm
    | cons d ds =>
      obtain ⟨digits, _⟩ := h
      simp

theorem parse_text (h : Hash) : parse h.text = .ok h := parse_eq_ok_iff.mpr rfl

theorem text_injective {h h' : Hash} (e : h.text = h'.text) : h = h' :=
  Except.ok.inj ((parse_text h).symm.trans (parse_eq_ok_iff.mpr e.symm))

theorem exists_digits {cs : List Char} (h : ∀ c ∈ cs, c ∈ alphabet) :
    ∃ ds : List Digit, ds.map Digit.toChar = cs := by
  induction cs with
  | nil => exact ⟨[], rfl⟩
  | cons c cs ih =>
    obtain ⟨d, hd⟩ := Digit.exists_toChar_iff.mpr (h c List.mem_cons_self)
    obtain ⟨ds, hds⟩ := ih fun c' hc' => h c' (List.mem_cons_of_mem _ hc')
    exact ⟨d :: ds, by rw [List.map_cons, hd, hds]⟩

/-- **The texts of hashes are the texts over the alphabet**, the empty one apart. -/
theorem exists_text_iff {s : String} :
    (∃ h : Hash, h.text = s) ↔ s.length ≠ 0 ∧ ∀ c ∈ s.toList, c ∈ alphabet := by
  constructor
  · rintro ⟨h, rfl⟩
    refine ⟨?_, fun c hc => ?_⟩
    · rw [length_text]
      exact fun e => h.nonempty (List.length_eq_zero_iff.mp e)
    · rw [toList_text] at hc
      obtain ⟨d, _, rfl⟩ := List.mem_map.mp hc
      exact d.toChar_mem
  · rintro ⟨hne, hall⟩
    obtain ⟨ds, hds⟩ := exists_digits hall
    have hnil : ds ≠ [] := by
      rintro rfl
      rw [← String.length_toList, ← hds] at hne
      exact hne rfl
    refine ⟨⟨ds, hnil⟩, ?_⟩
    rw [← String.toList_inj, toList_text, hds]

end Hash

/-! ## 3. Answers -/

theorem Digit.length_answers (d : Digit) : d.answers.length = 5 := rfl

theorem Digit.answers_ofAnswers (a b c d e : Bool) (rest : List Bool) :
    (Digit.ofAnswers (a :: b :: c :: d :: e :: rest)).answers = [a, b, c, d, e] := by
  show (Digit.ofAnswers [a, b, c, d, e]).answers = _
  revert a b c d e
  decide

theorem Digit.ofAnswers_answers (d : Digit) (rest : List Bool) :
    Digit.ofAnswers (d.answers ++ rest) = d := by
  show Digit.ofAnswers d.answers = d
  revert d
  decide

theorem length_toDigits (n : Nat) (as : List Bool) : (toDigits n as).length = n := by
  induction n generalizing as with
  | zero => rfl
  | succ n ih => simp [toDigits, ih]

/-- Answers by fives are kept. -/
theorem answers_toDigits {n : Nat} {as : List Bool} (h : as.length = 5 * n) :
    (toDigits n as).flatMap Digit.answers = as := by
  induction n generalizing as with
  | zero => exact (List.length_eq_zero_iff.mp h).symm
  | succ n ih =>
    match as, h with
    | a :: b :: c :: d :: e :: rest, h =>
      have hrest : rest.length = 5 * n := by
        simp only [List.length_cons] at h
        omega
      show (Digit.ofAnswers (a :: b :: c :: d :: e :: rest) :: toDigits n rest).flatMap _ = _
      rw [List.flatMap_cons, Digit.answers_ofAnswers, ih hrest]
      rfl

/-- Digits are kept. -/
theorem toDigits_answers (ds : List Digit) :
    toDigits ds.length (ds.flatMap Digit.answers) = ds := by
  induction ds with
  | nil => rfl
  | cons d ds ih =>
    show Digit.ofAnswers (d.answers ++ ds.flatMap Digit.answers) ::
      toDigits ds.length ((d.answers ++ ds.flatMap Digit.answers).drop 5) = _
    rw [Digit.ofAnswers_answers, List.drop_left' d.length_answers, ih]

theorem Hash.length_answers (h : Hash) : h.answers.length = 5 * h.length := by
  unfold Hash.answers Hash.length
  induction h.digits with
  | nil => rfl
  | cons d ds ih =>
    rw [List.flatMap_cons, List.length_append, d.length_answers, ih, List.length_cons]
    ring

end Barogrid.Geohash
