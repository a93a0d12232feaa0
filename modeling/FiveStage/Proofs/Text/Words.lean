import FiveStage.Text.Blank

/-!
# Lines and words

* `pieces_append`, `pieces_append_cut`, `flatten_pieces` : the pieces of a text that is cut at some
  characters;
* `LinesOf`, `linesOf_iff` : the lines of a text are what stands between its line feeds;
* `Blanks`, `IsWord`, `Divided` : a text that consists of some words with blanks between them;
  `Divided.words_eq` : these are the words that are found; `exists_divided` : every text does so.
-/

namespace FiveStage

/-! ## Pieces -/

section Pieces

variable {cut : Char → Bool} {c : Char} {cs w piece : List Char} {more : List (List Char)}

theorem pieces_cons_of_cut (hc : cut c = true) (cs : List Char) :
    pieces cut (c :: cs) = [] :: pieces cut cs := by
  rw [pieces, if_pos hc]

theorem pieces_cons_of_not_cut (hc : cut c = false) (h : pieces cut cs = piece :: more) :
    pieces cut (c :: cs) = (c :: piece) :: more := by
  rw [pieces, if_neg (by simp [hc]), h]

theorem exists_pieces (cut : Char → Bool) (cs : List Char) :
    ∃ piece more, pieces cut cs = piece :: more := by
  cases cs with
  | nil => exact ⟨_, _, rfl⟩
  | cons c cs =>
    rw [pieces]
    split
    · exact ⟨_, _, rfl⟩
    · split <;> exact ⟨_, _, rfl⟩

/-- What stands before the first cut goes to the first piece. -/
theorem pieces_append (hw : ∀ c ∈ w, cut c = false) (h : pieces cut cs = piece :: more) :
    pieces cut (w ++ cs) = (w ++ piece) :: more := by
  induction w with
  | nil => exact h
  | cons c w ih =>
    have hrest := ih fun d hd => hw d (List.mem_cons_of_mem c hd)
    exact pieces_cons_of_not_cut (hw c List.mem_cons_self) hrest

theorem pieces_of_uncut (hw : ∀ c ∈ w, cut c = false) : pieces cut w = [w] := by
  have h := pieces_append hw (show pieces cut [] = [] :: [] from rfl)
  rwa [List.append_nil] at h

theorem pieces_append_cut (hw : ∀ c ∈ w, cut c = false) (hc : cut c = true) (cs : List Char) :
    pieces cut (w ++ c :: cs) = w :: pieces cut cs := by
  rw [pieces_append hw (pieces_cons_of_cut hc cs), List.append_nil]

/-- The pieces hold all characters at which the text is not cut, and no others. -/
theorem flatten_pieces (cut : Char → Bool) (cs : List Char) :
    (pieces cut cs).flatten = cs.filter fun c => !cut c := by
  induction cs with
  | nil => rfl
  | cons c cs ih =>
    by_cases hc : cut c = true
    · rw [pieces_cons_of_cut hc, List.flatten_cons, List.nil_append, ih,
        List.filter_cons_of_neg (by simp [hc])]
    · have hc := Bool.eq_false_iff.2 hc
      obtain ⟨piece, more, h⟩ := exists_pieces cut cs
      rw [h, List.flatten_cons] at ih
      rw [pieces_cons_of_not_cut hc h, List.flatten_cons, List.cons_append, ih,
        List.filter_cons_of_pos (by simp [hc])]

end Pieces

/-! ## Lines -/

/-- The lines of a text: line feeds stand between them, and nowhere else. -/
structure LinesOf (text : List Char) (lines : List (List Char)) : Prop where
  ne_nil : lines ≠ []
  joined : ['\n'].intercalate lines = text
  unbroken : ∀ line ∈ lines, '\n' ∉ line

theorem linesOf_textLines (text : List Char) : LinesOf text (textLines text) := by
  induction text with
  | nil => exact ⟨List.cons_ne_nil _ _, rfl, by simp [textLines, pieces]⟩
  | cons c text ih =>
    obtain ⟨line, more, h⟩ := exists_pieces (· == '\n') text
    obtain ⟨-, hjoined, hunbroken⟩ := ih
    rw [textLines, h] at hjoined hunbroken
    by_cases hc : c = '\n'
    · subst hc
      rw [textLines, pieces_cons_of_cut (by rfl), h]
      refine ⟨List.cons_ne_nil _ _, ?_, List.forall_mem_cons.2 ⟨List.not_mem_nil, hunbroken⟩⟩
      rw [List.intercalate_cons_cons, hjoined]
      rfl
    · rw [textLines, pieces_cons_of_not_cut (by simpa using hc) h]
      obtain ⟨hline, hmore⟩ := List.forall_mem_cons.1 hunbroken
      refine ⟨List.cons_ne_nil _ _, ?_, List.forall_mem_cons.2 ⟨?_, hmore⟩⟩
      · rw [← hjoined]
        cases more with
        | nil => rw [List.intercalate_singleton, List.intercalate_singleton]
        | cons next more => rw [List.intercalate_cons_cons, List.intercalate_cons_cons,
            List.cons_append, List.cons_append]
      · exact fun hmem => (List.mem_cons.1 hmem).elim (fun e => hc e.symm) hline

theorem textLines_append (line text : List Char) (h : '\n' ∉ line) :
    textLines (line ++ '\n' :: text) = line :: textLines text := by
  refine pieces_append_cut (fun c hc => ?_) (by rfl) text
  simpa using fun e : c = '\n' => h (e ▸ hc)

theorem textLines_intercalate {lines : List (List Char)} (hne : lines ≠ [])
    (h : ∀ line ∈ lines, '\n' ∉ line) : textLines (['\n'].intercalate lines) = lines := by
  induction lines with
  | nil => exact absurd rfl hne
  | cons line more ih =>
    obtain ⟨hline, hmore⟩ := List.forall_mem_cons.1 h
    cases more with
    | nil =>
      rw [List.intercalate_singleton, textLines, pieces_of_uncut]
      exact fun c hc => by simpa using fun e : c = '\n' => hline (e ▸ hc)
    | cons next more =>
      rw [List.intercalate_cons_cons, List.append_assoc, List.singleton_append,
        textLines_append _ _ hline, ih (List.cons_ne_nil _ _) hmore]

/-- A text has one list of lines. -/
theorem linesOf_iff {text : List Char} {lines : List (List Char)} :
    LinesOf text lines ↔ lines = textLines text := by
  refine ⟨fun ⟨hne, hjoined, hunbroken⟩ => ?_, fun h => h ▸ linesOf_textLines text⟩
  rw [← hjoined, textLines_intercalate hne hunbroken]

/-! ## Words -/

/-- White space, or nothing at all. -/
def Blanks (cs : List Char) : Prop := ∀ c ∈ cs, isBlank c = true

/-- One character or more, and no white space. -/
def IsWord (w : List Char) : Prop := w ≠ [] ∧ ∀ c ∈ w, isBlank c = false

/-- A text consists of some words. White space stands between them, and may stand before the first
and behind the last. -/
inductive Divided : List (List Char) → List Char → Prop
  | nil {cs : List Char} (h : Blanks cs) : Divided [] cs
  | cons {lead w rest : List Char} {ws : List (List Char)} (hlead : Blanks lead) (hw : IsWord w)
      (hgap : ∀ c ∈ rest.head?, isBlank c = true) (h : Divided ws rest) :
      Divided (w :: ws) (lead ++ w ++ rest)

theorem words_cons_of_blank {c : Char} (hc : isBlank c = true) (cs : List Char) :
    words (c :: cs) = words cs := by
  rw [words, pieces_cons_of_cut hc, List.filter_cons_of_neg (by simp), words]

theorem words_append_of_blanks {lead : List Char} (h : Blanks lead) (cs : List Char) :
    words (lead ++ cs) = words cs := by
  induction lead with
  | nil => rfl
  | cons c lead ih =>
    obtain ⟨hc, hlead⟩ := List.forall_mem_cons.1 h
    rw [List.cons_append, words_cons_of_blank hc, ih hlead]

theorem words_append_of_isWord {w rest : List Char} (hw : IsWord w)
    (hgap : ∀ c ∈ rest.head?, isBlank c = true) : words (w ++ rest) = w :: words rest := by
  cases rest with
  | nil =>
    rw [List.append_nil, words, pieces_of_uncut hw.2, List.filter_cons_of_pos (by simpa using hw.1)]
    rfl
  | cons c rest =>
    have hc : isBlank c = true := hgap c rfl
    rw [words_cons_of_blank hc, words, pieces_append_cut hw.2 hc,
      List.filter_cons_of_pos (by simpa using hw.1), words]

theorem Divided.words_eq {ws : List (List Char)} {cs : List Char} (h : Divided ws cs) :
    words cs = ws := by
  induction h with
  | nil h =>
    have hnone := words_append_of_blanks h []
    rwa [List.append_nil] at hnone
  | cons hlead hw hgap _ ih =>
    rw [List.append_assoc, words_append_of_blanks hlead, words_append_of_isWord hw hgap, ih]

theorem Divided.cons_blank {c : Char} {ws : List (List Char)} {cs : List Char}
    (hc : isBlank c = true) (h : Divided ws cs) : Divided ws (c :: cs) := by
  cases h with
  | nil h => exact .nil (List.forall_mem_cons.2 ⟨hc, h⟩)
  | cons hlead hw hgap h => exact .cons (List.forall_mem_cons.2 ⟨hc, hlead⟩) hw hgap h

/-- A character before a text starts a word of its own, or goes to the first word of the text. -/
theorem Divided.cons_letter {c : Char} {ws : List (List Char)} {cs : List Char}
    (hc : isBlank c = false) (h : Divided ws cs) : ∃ ws', Divided ws' (c :: cs) := by
  have hletter : IsWord [c] := ⟨List.cons_ne_nil _ _, by simpa using hc⟩
  have hnone : Blanks [] := fun _ hmem => absurd hmem List.not_mem_nil
  cases h with
  | nil h =>
    exact ⟨_, .cons hnone hletter (fun d hd => h d (List.mem_of_mem_head? hd)) (.nil h)⟩
  | @cons lead w rest ws hlead hw hgap h =>
    cases lead with
    | nil =>
      have hlonger : IsWord (c :: w) :=
        ⟨List.cons_ne_nil _ _, List.forall_mem_cons.2 ⟨hc, hw.2⟩⟩
      exact ⟨_, .cons hnone hlonger hgap h⟩
    | cons b lead =>
      have hb : ∀ d ∈ ((b :: lead) ++ w ++ rest).head?, isBlank d = true := by
        intro d hd
        obtain rfl : b = d := Option.some.inj hd
        exact hlead b List.mem_cons_self
      exact ⟨_, .cons hnone hletter hb (.cons hlead hw hgap h)⟩

theorem exists_divided (cs : List Char) : ∃ ws, Divided ws cs := by
  induction cs with
  | nil => exact ⟨[], .nil fun _ hmem => absurd hmem List.not_mem_nil⟩
  | cons c cs ih =>
    obtain ⟨ws, h⟩ := ih
    by_cases hc : isBlank c = true
    · exact ⟨ws, h.cons_blank hc⟩
    · exact h.cons_letter (Bool.eq_false_iff.2 hc)

/-- What is not white space and stands in a text stands in one of its words. -/
theorem Divided.mem_iff {ws : List (List Char)} {cs : List Char} (h : Divided ws cs) {c : Char}
    (hc : isBlank c = false) : c ∈ cs ↔ ∃ w ∈ ws, c ∈ w := by
  have hblanks : ∀ {lead : List Char}, Blanks lead → c ∉ lead := by
    intro lead hlead hmem
    rw [hlead c hmem] at hc
    cases hc
  induction h with
  | nil h => exact iff_of_false (hblanks h) fun ⟨_, hw, _⟩ => List.not_mem_nil hw
  | cons hlead _ _ _ ih =>
    rw [List.mem_append, List.mem_append, or_iff_right (hblanks hlead)]
    simp only [List.mem_cons, exists_eq_or_imp]
    exact or_congr_right ih

end FiveStage
