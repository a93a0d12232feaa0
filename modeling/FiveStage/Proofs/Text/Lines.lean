import FiveStage.Proofs.Text.Digits
import FiveStage.Proofs.Text.Words

/-!
# Printed lines and numerals

* `Unbroken` : a text without line feed;
* `linesOf`, `unlines`, `linesOf_unlines` : the lines of a text are those it was put together from;
* `Marked`, `Marked.not_start` : what a line starts with, and what it then does not start with;
* `takeWhile_append_of_head`, `append_inj_of_head` : a run ends where something else begins;
* `EndsNumeral`, `decimal_append_inj`, `hexadecimal_append_inj` : a numeral is told from what stands
  behind it.
-/

namespace FiveStage

/-! ## Lines -/

/-- There is no line feed in a text. -/
def Unbroken (s : String) : Prop := '\n' ∉ s.toList

instance (s : String) : Decidable (Unbroken s) := inferInstanceAs (Decidable (¬ _))

theorem Unbroken.append {s t : String} (hs : Unbroken s) (ht : Unbroken t) :
    Unbroken (s ++ t) := by
  rw [Unbroken, String.toList_append, List.mem_append]
  exact fun h => h.elim hs ht

/-- The lines of a text. Behind the last line feed stands one more, which may be empty. -/
def linesOf (s : String) : List String := (textLines s.toList).map String.ofList

theorem linesOf_append {line : String} (h : Unbroken line) (s : String) :
    linesOf (line ++ "\n" ++ s) = line :: linesOf s := by
  have hlist : (line ++ "\n" ++ s).toList = line.toList ++ '\n' :: s.toList := by simp
  rw [linesOf, hlist, textLines_append _ _ h, List.map_cons, String.ofList_toList, linesOf]

/-- Lines put one under the other. -/
def unlines (lines : List String) : String := String.join (lines.map (· ++ "\n"))

theorem unlines_nil : unlines [] = "" := rfl

theorem unlines_cons (line : String) (lines : List String) :
    unlines (line :: lines) = line ++ "\n" ++ unlines lines := String.join_cons

theorem unlines_append (above below : List String) :
    unlines (above ++ below) = unlines above ++ unlines below := by
  rw [unlines, List.map_append, String.join_append, unlines, unlines]

theorem linesOf_unlines {lines : List String} (h : ∀ line ∈ lines, Unbroken line) :
    linesOf (unlines lines) = lines ++ [""] := by
  induction lines with
  | nil => rfl
  | cons line rest ih =>
    obtain ⟨hline, hrest⟩ := List.forall_mem_cons.1 h
    rw [unlines_cons, linesOf_append hline, ih hrest, List.cons_append]

/-! ## What a line starts with -/

/-- A line starts with one of some marks. -/
def Marked (marks : List String) (line : String) : Prop :=
  ∃ mark ∈ marks, mark.toList <+: line.toList

section Marks

variable {marks : List String} {mark line other : String}

theorem marked_self (h : mark ∈ marks) : Marked marks mark := ⟨mark, h, List.prefix_refl _⟩

theorem marked_append (h : mark ∈ marks) (rest : String) : Marked marks (mark ++ rest) := by
  refine ⟨mark, h, ?_⟩
  rw [String.toList_append]
  exact List.prefix_append _ _

/-- Of two beginnings of a line, one continues the other. -/
theorem Marked.not_start (h : Marked marks line)
    (hne : ∀ mark ∈ marks, ¬ mark.toList <+: other.toList ∧ ¬ other.toList <+: mark.toList) :
    ¬ other.toList <+: line.toList := by
  obtain ⟨mark, hmark, hline⟩ := h
  intro hother
  exact (List.prefix_or_prefix_of_prefix hline hother).elim (hne mark hmark).1 (hne mark hmark).2

end Marks

/-! ## Where a run ends -/

section Runs

variable {α : Type} {p : α → Bool} {xs xs' ys ys' : List α}

theorem takeWhile_append_of_head (hx : ∀ x ∈ xs, p x = true)
    (hy : ∀ y ∈ ys.head?, p y = false) : (xs ++ ys).takeWhile p = xs := by
  rw [List.takeWhile_append_of_pos hx]
  cases ys with
  | nil => rw [List.takeWhile_nil, List.append_nil]
  | cons y ys => rw [List.takeWhile_cons_of_neg (by simp [hy y rfl]), List.append_nil]

/-- Two runs with something else behind each of them are told apart. -/
theorem append_inj_of_head (hx : ∀ x ∈ xs, p x = true) (hx' : ∀ x ∈ xs', p x = true)
    (hy : ∀ y ∈ ys.head?, p y = false) (hy' : ∀ y ∈ ys'.head?, p y = false)
    (h : xs ++ ys = xs' ++ ys') : xs = xs' ∧ ys = ys' := by
  have hruns := congrArg (List.takeWhile p) h
  rw [takeWhile_append_of_head hx hy, takeWhile_append_of_head hx' hy'] at hruns
  subst hruns
  exact ⟨rfl, List.append_cancel_left h⟩

end Runs

/-! ## Where a numeral ends -/

variable {base m n : Nat} {s t : String}

/-- No digit stands at the beginning of a text. -/
def EndsNumeral (s : String) : Prop := (s.toList.head?.bind digitValue?).isSome = false

instance (s : String) : Decidable (EndsNumeral s) := inferInstanceAs (Decidable (_ = false))

theorem endsNumeral_empty : EndsNumeral "" := rfl

/-- What stands behind the first character does not matter. -/
theorem EndsNumeral.append {sep : String} (h : EndsNumeral sep) (hne : sep ≠ "") (s : String) :
    EndsNumeral (sep ++ s) := by
  rw [EndsNumeral, String.toList_append]
  rw [EndsNumeral] at h
  cases hsep : sep.toList with
  | nil => exact absurd (String.toList_injective hsep) hne
  | cons c rest =>
    rw [hsep] at h
    exact h

theorem digit_of_mem_numeral (h2 : 2 ≤ base) (h16 : base ≤ 16) {c : Char}
    (h : c ∈ numeral base n) : (digitValue? c).isSome = true := by
  obtain ⟨d, hd⟩ := digit_of_numeralValue (numeralValue_numeral base n h2 h16) c h
  rw [hd, Option.isSome_some]

theorem numeral_injective (h2 : 2 ≤ base) (h16 : base ≤ 16)
    (h : numeral base m = numeral base n) : m = n := by
  have hvalue := congrArg (numeralValue base) h
  rw [numeralValue_numeral _ _ h2 h16, numeralValue_numeral _ _ h2 h16] at hvalue
  exact Option.some.inj hvalue

theorem numeral_append_inj (h2 : 2 ≤ base) (h16 : base ≤ 16) (hs : EndsNumeral s)
    (ht : EndsNumeral t) (h : String.ofList (numeral base m) ++ s =
      String.ofList (numeral base n) ++ t) : m = n ∧ s = t := by
  have hlist := congrArg String.toList h
  rw [String.toList_append, String.toList_append, String.toList_ofList, String.toList_ofList]
    at hlist
  have hends : ∀ {s : String}, EndsNumeral s →
      ∀ c ∈ s.toList.head?, (digitValue? c).isSome = false := by
    intro s hs c hc
    rw [EndsNumeral, Option.mem_def.1 hc] at hs
    exact hs
  obtain ⟨hdigits, hrest⟩ := append_inj_of_head
    (fun c hc => digit_of_mem_numeral h2 h16 hc) (fun c hc => digit_of_mem_numeral h2 h16 hc)
    (hends hs) (hends ht) hlist
  exact ⟨numeral_injective h2 h16 hdigits, String.toList_injective hrest⟩

theorem decimal_append_inj (hs : EndsNumeral s) (ht : EndsNumeral t)
    (h : decimal m ++ s = decimal n ++ t) : m = n ∧ s = t :=
  numeral_append_inj (by decide) (by decide) hs ht h

theorem hexadecimal_append_inj (hs : EndsNumeral s) (ht : EndsNumeral t)
    (h : hexadecimal m ++ s = hexadecimal n ++ t) : m = n ∧ s = t :=
  numeral_append_inj (by decide) (by decide) hs ht h

theorem decimal_injective (h : decimal m = decimal n) : m = n :=
  (decimal_append_inj endsNumeral_empty endsNumeral_empty (congrArg (· ++ "") h)).1

/-- Two numerals with something between them are told apart. -/
theorem decimal_pair_inj {i j : Nat} {sep : String} (hsep : EndsNumeral sep) (hne : sep ≠ "")
    (h : decimal m ++ (sep ++ decimal n) = decimal i ++ (sep ++ decimal j)) : m = i ∧ n = j := by
  obtain ⟨hfirst, hrest⟩ := decimal_append_inj (hsep.append hne _) (hsep.append hne _) h
  rw [String.append_right_inj] at hrest
  exact ⟨hfirst, decimal_injective hrest⟩

theorem hexadecimal_injective {a b : Word} (h : hexadecimal a.toNat = hexadecimal b.toNat) :
    a = b :=
  BitVec.eq_of_toNat_eq
    (hexadecimal_append_inj endsNumeral_empty endsNumeral_empty (congrArg (· ++ "") h)).1

theorem unbroken_numeral (h2 : 2 ≤ base) (h16 : base ≤ 16) :
    Unbroken (String.ofList (numeral base n)) := by
  intro h
  rw [String.toList_ofList] at h
  cases digit_of_mem_numeral h2 h16 h

theorem unbroken_decimal (n : Nat) : Unbroken (decimal n) :=
  unbroken_numeral (by decide) (by decide)

theorem unbroken_hexadecimal (n : Nat) : Unbroken (hexadecimal n) :=
  unbroken_numeral (by decide) (by decide)

end FiveStage
