import EventLedger.JsonDecoder
import Mathlib.Data.List.TakeWhile

/-!
# What `dumps` prints

A value is printed in printed ASCII only: whatever texts are in it, quotes,
control characters and line ends among them, the result is one line.

That is what lets a stream of lines be split again where it was put together: no
message, exception or extra of a record can end its line early, and none can begin
another.  The one thing asked of a value is that its numbers are numerals, or one of
the three words Python prints.
-/
namespace EventLedger
namespace Json

/-- A character of printed ASCII. -/
def Printable (c : Char) : Prop := 32 ≤ c.toNat ∧ c.toNat ≤ 126

instance (c : Char) : Decidable (Printable c) := inferInstanceAs (Decidable (_ ∧ _))

/-- Printability of a given text can be computed. -/
theorem printable_of_all {cs : List Char} (h : cs.all (Printable ·) = true) :
    ∀ c ∈ cs, Printable c := by
  simpa using h

theorem printable_hexDigit {n : ℕ} (h : n < 16) : Printable (hexDigit n) := by
  interval_cases n <;> decide

theorem printable_escapeUnit (u : ℕ) : ∀ c ∈ escapeUnit u, Printable c := by
  intro c hc
  simp only [escapeUnit, List.mem_cons, List.not_mem_nil, or_false] at hc
  rcases hc with rfl | rfl | rfl | rfl | rfl | rfl
  · decide
  · decide
  all_goals exact printable_hexDigit (Nat.mod_lt _ (by decide))

theorem printable_escapeChar (c : Char) : ∀ d ∈ escapeChar c, Printable d := by
  have hpair : ∀ a b : Char, Printable a → Printable b → ∀ d ∈ [a, b], Printable d := by
    intro a b ha hb d hd
    rcases List.mem_pair.mp hd with rfl | rfl
    · exact ha
    · exact hb
  unfold escapeChar
  split_ifs with h₁ h₂ h₃ h₄ h₅ h₆ h₇ h₈
  any_goals exact hpair _ _ (by decide) (by decide)
  · intro d hd
    rw [List.mem_singleton.mp hd]
    exact h₈
  · exact printable_escapeUnit _
  · intro d hd
    rcases List.mem_append.mp hd with hd | hd
    · exact printable_escapeUnit _ d hd
    · exact printable_escapeUnit _ d hd

theorem printable_quote (s : String) : ∀ c ∈ (quote s).toList, Printable c := by
  intro c hc
  rw [quote, String.toList_ofList, List.cons_append, List.mem_cons, List.mem_append,
    List.mem_singleton] at hc
  rcases hc with rfl | hc | rfl
  · decide
  · obtain ⟨d, -, hd⟩ := List.mem_flatMap.mp hc
    exact printable_escapeChar d c hd
  · decide

/-- A character of a text is one of a number, or in what is left. -/
def NumberThen (cs rest : List Char) : Prop := ∀ c ∈ cs, isNumberChar c = true ∨ c ∈ rest

section
variable {cs cs' rest : List Char}

theorem NumberThen.trans (h : NumberThen cs cs') (h' : NumberThen cs' rest) :
    NumberThen cs rest :=
  fun c hc => (h c hc).elim .inl (h' c)

theorem NumberThen.cons (h : NumberThen cs rest) {c : Char} (hc : isNumberChar c = true) :
    NumberThen (c :: cs) rest := by
  intro d hd
  rcases List.mem_cons.mp hd with rfl | hd
  · exact .inl hc
  · exact h d hd

theorem NumberThen.refl (cs : List Char) : NumberThen cs cs := fun _ hc => .inr hc

theorem isNumberChar_digit {c : Char} (h : c.isDigit = true) : isNumberChar c = true := by
  rw [isNumberChar, h, Bool.true_or]

theorem dropDigits_numberThen (cs : List Char) : NumberThen cs (dropDigits cs) := by
  intro c hc
  rw [← List.takeWhile_append_dropWhile (p := Char.isDigit) (l := cs)] at hc
  rcases List.mem_append.mp hc with hc | hc
  · exact .inl (isNumberChar_digit (List.mem_takeWhile_imp hc))
  · exact .inr hc

theorem dropFraction_numberThen (cs : List Char) : NumberThen cs (dropFraction cs) := by
  unfold dropFraction
  split
  · rename_i c d ds
    split
    · rename_i h
      obtain ⟨rfl, hd⟩ := h
      exact ((dropDigits_numberThen ds).cons (isNumberChar_digit hd)).cons (by decide)
    · exact .refl _
  · exact .refl _

theorem dropSign_numberThen (cs : List Char) : NumberThen cs (dropSign cs) := by
  unfold dropSign
  split
  · rename_i c rest
    split
    · rename_i h
      rcases h with rfl | rfl
      · exact (NumberThen.refl rest).cons (by decide)
      · exact (NumberThen.refl rest).cons (by decide)
    · exact .refl _
  · exact .refl _

theorem dropExponent_numberThen (cs : List Char) : NumberThen cs (dropExponent cs) := by
  unfold dropExponent
  split
  · rename_i e rest
    split
    · rename_i he
      have hsign := dropSign_numberThen rest
      split
      · rename_i d ds hrest
        split
        · rename_i hd
          rw [hrest] at hsign
          refine (hsign.trans ((dropDigits_numberThen ds).cons (isNumberChar_digit hd))).cons ?_
          rcases he with rfl | rfl
          · decide
          · decide
        · exact .refl _
      · exact .refl _
    · exact .refl _
  · exact .refl _

theorem dropNatural_numberThen (h : dropNatural cs = some rest) : NumberThen cs rest := by
  have htail : ∀ cs, NumberThen cs (dropExponent (dropFraction cs)) :=
    fun cs => (dropFraction_numberThen cs).trans (dropExponent_numberThen _)
  unfold dropNatural at h
  split at h
  · rename_i c cs
    split at h
    · rename_i hzero
      cases h
      rw [hzero]
      exact (htail cs).cons (by decide)
    · split at h
      · rename_i hdigit
        cases h
        exact ((dropDigits_numberThen cs).trans (htail _)).cons (isNumberChar_digit hdigit)
      · cases h
  · cases h

theorem dropNumber_numberThen (h : dropNumber cs = some rest) : NumberThen cs rest := by
  unfold dropNumber at h
  split at h
  · rename_i c cs
    split at h
    · rename_i hminus
      rw [hminus]
      exact (dropNatural_numberThen h).cons (by decide)
    · exact dropNatural_numberThen h
  · cases h

end

theorem printable_numberChar {c : Char} (h : isNumberChar c = true) : Printable c := by
  rw [isNumberChar, Bool.or_eq_true] at h
  rcases h with h | h
  · rw [Char.isDigit, Bool.and_eq_true, decide_eq_true_iff, decide_eq_true_iff] at h
    have hlow : 48 ≤ c.toNat := h.1
    have hhigh : c.toNat ≤ 57 := h.2
    exact ⟨by omega, by omega⟩
  · simp only [decide_eq_true_iff, List.mem_cons, List.not_mem_nil, or_false] at h
    rcases h with rfl | rfl | rfl | rfl | rfl
    all_goals decide

theorem printable_number {repr : String → Option String} {literal : String}
    (h : (Json.number literal).Printed repr) : ∀ c ∈ literal.toList, Printable c := by
  rcases h with h | ⟨h, -⟩
  · simp only [List.mem_cons, List.not_mem_nil, or_false] at h
    rcases h with rfl | rfl | rfl
    all_goals exact printable_of_all (by decide)
  · intro c hc
    rcases dropNumber_numberThen h c hc with hc | hc
    · exact printable_numberChar hc
    · exact absurd hc List.not_mem_nil

/-- Texts that are printable stay so when they are joined. -/
theorem printable_listText {texts : List String}
    (h : ∀ text ∈ texts, ∀ c ∈ text.toList, Printable c) :
    ∀ c ∈ listText texts, Printable c := by
  induction texts with
  | nil => exact fun c hc => absurd hc List.not_mem_nil
  | cons text texts ih =>
    have htext := h text List.mem_cons_self
    by_cases hnil : texts = []
    · rw [hnil, listText_singleton]
      exact htext
    · rw [listText_cons text hnil]
      intro c hc
      rcases List.mem_append.mp hc with hc | hc
      · exact htext c hc
      · rcases List.mem_cons.mp hc with rfl | hc
        · decide
        · rcases List.mem_cons.mp hc with rfl | hc
          · decide
          · exact ih (fun text' h' => h text' (List.mem_cons_of_mem _ h')) c hc

section
variable {repr : String → Option String}

mutual

/-- **What is printed is printed ASCII**, and so on one line. -/
theorem printable_dumps (v : Json) (h : v.Printed repr) : ∀ c ∈ (dumps v).toList, Printable c := by
  cases v with
  | null =>
    rw [dumps]
    exact printable_of_all (by decide)
  | bool b =>
    cases b with
    | true =>
      rw [dumps]
      exact printable_of_all (by decide)
    | false =>
      rw [dumps]
      exact printable_of_all (by decide)
  | number literal =>
    rw [dumps]
    exact printable_number h
  | str s =>
    rw [dumps]
    exact printable_quote s
  | arr items =>
    intro c hc
    rw [← List.append_nil (dumps _).toList, dumps_arr, List.mem_cons, List.mem_append,
      List.mem_singleton] at hc
    rcases hc with rfl | hc | rfl
    · decide
    · exact printable_listText (printable_items items h) c hc
    · decide
  | obj fields =>
    intro c hc
    rw [← List.append_nil (dumps _).toList, dumps_obj, List.mem_cons, List.mem_append,
      List.mem_singleton] at hc
    rcases hc with rfl | hc | rfl
    · decide
    · exact printable_listText (printable_fields fields h.2) c hc
    · decide

theorem printable_items (items : List Json) (h : PrintedItems repr items) :
    ∀ text ∈ dumpsItems items, ∀ c ∈ text.toList, Printable c := by
  cases items with
  | nil => exact fun text htext => absurd htext List.not_mem_nil
  | cons v items =>
    intro text htext
    rw [dumpsItems, List.mem_cons] at htext
    rcases htext with rfl | htext
    · exact printable_dumps v h.1
    · exact printable_items items h.2 text htext

theorem printable_fields (fields : List (String × Json)) (h : PrintedFields repr fields) :
    ∀ text ∈ dumpsFields fields, ∀ c ∈ text.toList, Printable c := by
  cases fields with
  | nil => exact fun text htext => absurd htext List.not_mem_nil
  | cons field fields =>
    obtain ⟨k, v⟩ := field
    intro text htext
    rw [dumpsFields, List.mem_cons] at htext
    rcases htext with rfl | htext
    · intro c hc
      rw [String.toList_append, String.toList_append, List.mem_append, List.mem_append] at hc
      rcases hc with (hc | hc) | hc
      · exact printable_quote k c hc
      · exact printable_of_all (by decide) c hc
      · exact printable_dumps v h.1 c hc
    · exact printable_fields fields h.2 text htext

end

end

end Json
end EventLedger
