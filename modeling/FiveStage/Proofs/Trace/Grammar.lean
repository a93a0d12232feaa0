import FiveStage.Proofs.Text.Digits
import FiveStage.Proofs.Text.Words
import FiveStage.Trace.File

/-!
# The grammar of traces

* `AddressWord`, `LineSays`, `TraceSays` : the words that stand for an address, the lines that stand
  for an operation, and the lines that stand for some operations; with or without a plus sign
  between `0x` and the digits;
* `LineFaults`, `FirstFault` : what is wrong with a line, and the first line of several with which
  something is wrong;
* `operationsOfLines_ok_iff`, `operationsOfLines_error_iff` : what is read from some lines;
* `traceSays_unsigned_iff` : the plus sign is all that the two grammars differ in;
* `traceSays_traceText` : a text that is printed stands for what it is printed from;
* `readTraceFile_exact` : the reader, from the bytes of a file on.
-/

namespace FiveStage

/-! ## The grammar -/

/-- A word that stands for an address: `0x`, and digits in base 16 of a number below `2 ^ 64`. If
`signed`, a plus sign may stand before the digits. -/
def AddressWord (signed : Bool) (w : List Char) (a : Word) : Prop :=
  ∃ sign digits, (sign = [] ∨ (signed = true ∧ sign = ['+'])) ∧
    w = '0' :: 'x' :: (sign ++ digits) ∧ digits ≠ [] ∧ numeralValue 16 digits = some a.toNat

/-- A line that stands for an operation: two words, the letter of its kind and its address. -/
def LineSays (signed : Bool) (line : List Char) (o : Operation) : Prop :=
  ∃ address, Divided [[o.kind.letter], address] line ∧ AddressWord signed address o.address

/-- Lines that stand for some operations, in order. A line of white space stands for nothing. -/
inductive TraceSays (signed : Bool) : List (List Char) → List Operation → Prop
  | nil : TraceSays signed [] []
  | blank {line : List Char} {rest : List (List Char)} {ops : List Operation} (h : Blanks line)
      (hrest : TraceSays signed rest ops) : TraceSays signed (line :: rest) ops
  | operation {line : List Char} {rest : List (List Char)} {o : Operation} {ops : List Operation}
      (h : LineSays signed line o) (hrest : TraceSays signed rest ops) :
      TraceSays signed (line :: rest) (o :: ops)

/-- What is wrong with a line that is not white space and stands for no operation. -/
inductive LineFaults (signed : Bool) (line : List Char) : TraceFault → Prop
  | notTwoWords {ws : List (List Char)} (h : Divided ws line) (hne : ws ≠ [])
      (hlen : ws.length ≠ 2) :
    LineFaults signed line .notTwoWords
  | unknownKind {op address : List Char} (h : Divided [op, address] line)
      (hop : ∀ kind : AccessKind, op ≠ [kind.letter]) :
    LineFaults signed line (.unknownKind (String.ofList op))
  | noHexMark {kind : AccessKind} {address : List Char}
      (h : Divided [[kind.letter], address] line)
      (hmark : ∀ digits, address ≠ '0' :: 'x' :: digits) :
    LineFaults signed line .noHexMark
  | badAddress {kind : AccessKind} {digits : List Char}
      (h : Divided [[kind.letter], '0' :: 'x' :: digits] line)
      (haddress : ∀ a, ¬ AddressWord signed ('0' :: 'x' :: digits) a) :
    LineFaults signed line .badAddress

/-- The first line with which something is wrong, by its number, and what is wrong with it. All
lines before it stand for operations or for nothing. -/
def FirstFault (signed : Bool) (first : Nat) (lines : List (List Char)) (n : Nat)
    (fault : TraceFault) : Prop :=
  ∃ before bad after ops, lines = before ++ bad :: after ∧ n = first + before.length ∧
    TraceSays signed before ops ∧ LineFaults signed bad fault

/-! ## One line -/

theorem blanks_iff {cs : List Char} : Blanks cs ↔ Divided [] cs :=
  ⟨.nil, fun h => by cases h; assumption⟩

theorem AccessKind.ofWord?_letter (kind : AccessKind) : ofWord? [kind.letter] = some kind := by
  cases kind <;> rfl

theorem AccessKind.ofWord?_of_ne {w : List Char} (h : ∀ kind : AccessKind, w ≠ [kind.letter]) :
    ofWord? w = none := by
  unfold ofWord?
  split
  · exact absurd rfl (h .read)
  · exact absurd rfl (h .write)
  · rfl

theorem addressOfWord_of_unmarked {w : List Char} (h : ∀ digits, w ≠ '0' :: 'x' :: digits) :
    addressOfWord w = .error .noHexMark := by
  unfold addressOfWord
  split
  · exact absurd rfl (h _)
  · rfl

theorem addressWord_iff {digits : List Char} {a : Word} :
    AddressWord true ('0' :: 'x' :: digits) a ↔ readUnsigned 16 digits = .ok a := by
  rw [readUnsigned_ok_iff (by decide)]
  simp only [AddressWord, true_and, List.cons.injEq]

theorem AddressWord.addressOfWord {w : List Char} {a : Word} (h : AddressWord true w a) :
    addressOfWord w = .ok a := by
  obtain ⟨sign, digits, -, rfl, -⟩ := id h
  rw [FiveStage.addressOfWord, addressWord_iff.1 h]
  rfl

theorem addressOfWord_of_not_addressWord {digits : List Char}
    (h : ∀ a, ¬ AddressWord true ('0' :: 'x' :: digits) a) :
    addressOfWord ('0' :: 'x' :: digits) = .error .badAddress := by
  rw [addressOfWord]
  cases hread : readUnsigned 16 digits with
  | error e => rfl
  | ok a => exact absurd (addressWord_iff.2 hread) (h a)

theorem LineSays.words_ne_nil {signed : Bool} {line : List Char} {o : Operation}
    (h : LineSays signed line o) : words line ≠ [] := by
  obtain ⟨address, h, -⟩ := h
  rw [h.words_eq]
  exact List.cons_ne_nil _ _

theorem LineSays.operationOfWords {line : List Char} {o : Operation} (h : LineSays true line o) :
    operationOfWords (words line) = .ok o := by
  obtain ⟨address, h, haddress⟩ := h
  rw [h.words_eq, FiveStage.operationOfWords, AccessKind.ofWord?_letter]
  simp only [haddress.addressOfWord]
  rfl

theorem LineFaults.words_ne_nil {signed : Bool} {line : List Char} {fault : TraceFault}
    (h : LineFaults signed line fault) : words line ≠ [] := by
  cases h with
  | notTwoWords h hne => rwa [h.words_eq]
  | unknownKind h | noHexMark h | badAddress h =>
    rw [h.words_eq]
    exact List.cons_ne_nil _ _

theorem LineFaults.operationOfWords {line : List Char} {fault : TraceFault}
    (h : LineFaults true line fault) : operationOfWords (words line) = .error fault := by
  cases h with
  | @notTwoWords ws h _ hlen =>
    rw [h.words_eq]
    unfold FiveStage.operationOfWords
    split
    · exact absurd rfl hlen
    · rfl
  | unknownKind h hop =>
    rw [h.words_eq, FiveStage.operationOfWords, AccessKind.ofWord?_of_ne hop]
  | noHexMark h hmark =>
    rw [h.words_eq, FiveStage.operationOfWords, AccessKind.ofWord?_letter]
    simp only [addressOfWord_of_unmarked hmark]
    rfl
  | badAddress h haddress =>
    rw [h.words_eq, FiveStage.operationOfWords, AccessKind.ofWord?_letter]
    simp only [addressOfWord_of_not_addressWord haddress]
    rfl

/-- A line is white space, or stands for an operation, or something is wrong with it. -/
theorem line_cases (signed : Bool) (line : List Char) :
    Blanks line ∨ (∃ o, LineSays signed line o) ∨ ∃ fault, LineFaults signed line fault := by
  obtain ⟨ws, h⟩ := exists_divided line
  match ws with
  | [] => exact .inl (blanks_iff.2 h)
  | [op, address] =>
    by_cases hop : ∃ kind : AccessKind, op = [kind.letter]
    · obtain ⟨kind, rfl⟩ := hop
      by_cases hmark : ∃ digits, address = '0' :: 'x' :: digits
      · obtain ⟨digits, rfl⟩ := hmark
        by_cases haddress : ∃ a, AddressWord signed ('0' :: 'x' :: digits) a
        · obtain ⟨a, ha⟩ := haddress
          exact .inr (.inl ⟨⟨kind, a⟩, _, h, ha⟩)
        · exact .inr (.inr ⟨_, .badAddress h (not_exists.1 haddress)⟩)
      · exact .inr (.inr ⟨_, .noHexMark h (not_exists.1 hmark)⟩)
    · exact .inr (.inr ⟨_, .unknownKind h (not_exists.1 hop)⟩)
  | [_] => exact .inr (.inr ⟨_, .notTwoWords h (List.cons_ne_nil _ _) (by simp)⟩)
  | _ :: _ :: _ :: _ =>
    refine .inr (.inr ⟨_, .notTwoWords h (List.cons_ne_nil _ _) ?_⟩)
    simp only [List.length_cons]
    omega

/-! ## Some lines -/

theorem operationsOfLines_of_blanks {line : List Char} (h : Blanks line) (n : Nat)
    (rest : List (List Char)) :
    operationsOfLines n (line :: rest) = operationsOfLines (n + 1) rest := by
  rw [operationsOfLines, (blanks_iff.1 h).words_eq]

theorem operationsOfLines_of_ne_nil {line : List Char} (h : words line ≠ []) (n : Nat)
    (rest : List (List Char)) :
    operationsOfLines n (line :: rest) = match operationOfWords (words line) with
      | .error fault => .error (n, fault)
      | .ok o => (operationsOfLines (n + 1) rest).map (o :: ·) := by
  rw [operationsOfLines]
  split
  · rename_i hw
    exact absurd hw h
  · rfl

theorem LineSays.operationsOfLines {line : List Char} {o : Operation} (h : LineSays true line o)
    (n : Nat) (rest : List (List Char)) :
    operationsOfLines n (line :: rest) = (operationsOfLines (n + 1) rest).map (o :: ·) := by
  rw [operationsOfLines_of_ne_nil h.words_ne_nil, h.operationOfWords]

theorem LineFaults.operationsOfLines {line : List Char} {fault : TraceFault}
    (h : LineFaults true line fault) (n : Nat) (rest : List (List Char)) :
    operationsOfLines n (line :: rest) = .error (n, fault) := by
  rw [operationsOfLines_of_ne_nil h.words_ne_nil, h.operationOfWords]

/-- Lines that stand for operations are read one after the other, whatever follows them. -/
theorem TraceSays.operationsOfLines_append {before : List (List Char)} {ops : List Operation}
    (h : TraceSays true before ops) (n : Nat) (rest : List (List Char)) :
    operationsOfLines n (before ++ rest) =
      (operationsOfLines (n + before.length) rest).map (ops ++ ·) := by
  induction h generalizing n with
  | nil =>
    rw [List.nil_append, List.length_nil, Nat.add_zero]
    cases operationsOfLines n rest <;> rfl
  | @blank line before ops h _ ih =>
    rw [List.cons_append, operationsOfLines_of_blanks h, ih, List.length_cons, Nat.add_assoc,
      Nat.add_comm 1]
  | @operation line before o ops h _ ih =>
    rw [List.cons_append, h.operationsOfLines, ih, List.length_cons, Nat.add_assoc, Nat.add_comm 1]
    cases operationsOfLines (n + (before.length + 1)) rest <;> rfl

theorem TraceSays.operationsOfLines {lines : List (List Char)} {ops : List Operation}
    (h : TraceSays true lines ops) (n : Nat) : operationsOfLines n lines = .ok ops := by
  have hall := h.operationsOfLines_append n []
  rw [List.append_nil] at hall
  rw [hall, FiveStage.operationsOfLines, Except.map, List.append_nil]

theorem FirstFault.operationsOfLines {first n : Nat} {lines : List (List Char)}
    {fault : TraceFault} (h : FirstFault true first lines n fault) :
    operationsOfLines first lines = .error (n, fault) := by
  obtain ⟨before, bad, after, ops, rfl, rfl, hbefore, hbad⟩ := h
  rw [hbefore.operationsOfLines_append, hbad.operationsOfLines]
  rfl

/-- Some lines stand for operations, or one of them is the first with which something is wrong. -/
theorem lines_cases (signed : Bool) (first : Nat) (lines : List (List Char)) :
    (∃ ops, TraceSays signed lines ops) ∨ ∃ n fault, FirstFault signed first lines n fault := by
  induction lines generalizing first with
  | nil => exact .inl ⟨[], .nil⟩
  | cons line rest ih =>
    by_cases hfault : ∃ fault, LineFaults signed line fault
    · obtain ⟨fault, h⟩ := hfault
      exact .inr ⟨_, fault, [], line, rest, [], rfl, rfl, .nil, h⟩
    · have hlonger : ∀ {before ops}, TraceSays signed before ops →
          ∃ ops', TraceSays signed (line :: before) ops' := by
        intro before ops hbefore
        obtain h | ⟨o, h⟩ | h := line_cases signed line
        · exact ⟨_, .blank h hbefore⟩
        · exact ⟨_, .operation h hbefore⟩
        · exact absurd h hfault
      obtain ⟨ops, hrest⟩ | ⟨n, fault, before, bad, after, ops, rfl, rfl, hbefore, hbad⟩ :=
        ih (first + 1)
      · exact .inl (hlonger hrest)
      · obtain ⟨ops', hbefore⟩ := hlonger hbefore
        exact .inr ⟨_, fault, line :: before, bad, after, ops', rfl, rfl, hbefore, hbad⟩

/-- The operations that are read are those that the lines stand for. -/
theorem operationsOfLines_ok_iff {n : Nat} {lines : List (List Char)} {ops : List Operation} :
    operationsOfLines n lines = .ok ops ↔ TraceSays true lines ops := by
  constructor
  · intro hok
    obtain ⟨ops', h⟩ | ⟨m, fault, h⟩ := lines_cases true n lines
    · have hread := h.operationsOfLines n
      rw [hok] at hread
      rwa [Except.ok.inj hread]
    · rw [h.operationsOfLines] at hok
      cases hok
  · exact fun h => h.operationsOfLines n

/-- What is refused is the first line with which something is wrong. -/
theorem operationsOfLines_error_iff {first n : Nat} {lines : List (List Char)}
    {fault : TraceFault} :
    operationsOfLines first lines = .error (n, fault) ↔ FirstFault true first lines n fault := by
  constructor
  · intro herror
    obtain ⟨ops, h⟩ | ⟨m, fault', h⟩ := lines_cases true first lines
    · rw [h.operationsOfLines] at herror
      cases herror
    · have hread := h.operationsOfLines
      rw [herror] at hread
      cases hread
      exact h
  · exact FirstFault.operationsOfLines

/-! ## The plus sign -/

theorem plus_notMem_of_numeralValue {base value : Nat} {digits : List Char}
    (h : numeralValue base digits = some value) : '+' ∉ digits := by
  intro hmem
  obtain ⟨d, hd⟩ := digit_of_numeralValue h _ hmem
  cases hd

theorem addressWord_unsigned_iff {w : List Char} {a : Word} :
    AddressWord false w a ↔ AddressWord true w a ∧ '+' ∉ w := by
  constructor
  · rintro ⟨sign, digits, rfl | ⟨hsigned, -⟩, rfl, hne, hvalue⟩
    · refine ⟨⟨[], digits, .inl rfl, rfl, hne, hvalue⟩, ?_⟩
      have hplus := plus_notMem_of_numeralValue hvalue
      simpa using hplus
    · cases hsigned
  · rintro ⟨⟨sign, digits, rfl | ⟨-, rfl⟩, rfl, hne, hvalue⟩, hplus⟩
    · exact ⟨[], digits, .inl rfl, rfl, hne, hvalue⟩
    · exact absurd (by simp) hplus

theorem lineSays_unsigned_iff {line : List Char} {o : Operation} :
    LineSays false line o ↔ LineSays true line o ∧ '+' ∉ line := by
  have hword : ∀ {address : List Char}, Divided [[o.kind.letter], address] line →
      ('+' ∈ line ↔ '+' ∈ address) := by
    intro address h
    have hletter : '+' ∉ [o.kind.letter] := by cases o.kind <;> decide
    rw [h.mem_iff (by decide)]
    simp only [List.mem_cons, List.not_mem_nil, or_false, exists_eq_or_imp, exists_eq_left]
    exact or_iff_right (by simpa using hletter)
  constructor
  · rintro ⟨address, h, haddress⟩
    obtain ⟨haddress, hplus⟩ := addressWord_unsigned_iff.1 haddress
    exact ⟨⟨address, h, haddress⟩, fun hmem => hplus ((hword h).1 hmem)⟩
  · rintro ⟨⟨address, h, haddress⟩, hplus⟩
    exact ⟨address, h, addressWord_unsigned_iff.2
      ⟨haddress, fun hmem => hplus ((hword h).2 hmem)⟩⟩

theorem Blanks.plus_notMem {line : List Char} (h : Blanks line) : '+' ∉ line :=
  fun hmem => by cases h _ hmem

/-- The two grammars differ in the plus sign alone. -/
theorem traceSays_unsigned_iff {lines : List (List Char)} {ops : List Operation} :
    TraceSays false lines ops ↔ TraceSays true lines ops ∧ ∀ line ∈ lines, '+' ∉ line := by
  constructor
  · intro h
    induction h with
    | nil => exact ⟨.nil, fun _ hmem => absurd hmem List.not_mem_nil⟩
    | blank h _ ih => exact ⟨.blank h ih.1, List.forall_mem_cons.2 ⟨h.plus_notMem, ih.2⟩⟩
    | operation h _ ih =>
      obtain ⟨h, hplus⟩ := lineSays_unsigned_iff.1 h
      exact ⟨.operation h ih.1, List.forall_mem_cons.2 ⟨hplus, ih.2⟩⟩
  · rintro ⟨h, hplus⟩
    induction h with
    | nil => exact .nil
    | blank h _ ih => exact .blank h (ih (List.forall_mem_cons.1 hplus).2)
    | operation h _ ih =>
      obtain ⟨hline, hrest⟩ := List.forall_mem_cons.1 hplus
      exact .operation (lineSays_unsigned_iff.2 ⟨h, hline⟩) (ih hrest)

theorem mem_textLines_iff {text : List Char} {c : Char} (hc : c ≠ '\n') :
    (∀ line ∈ textLines text, c ∉ line) ↔ c ∉ text := by
  have hflat : c ∈ (textLines text).flatten ↔ c ∈ text := by
    rw [textLines, flatten_pieces, List.mem_filter]
    exact and_iff_left (by simpa using hc)
  rw [← hflat, List.mem_flatten]
  constructor
  · rintro h ⟨line, hline, hmem⟩
    exact h line hline hmem
  · exact fun h line hline hmem => h ⟨line, hline, hmem⟩

/-! ## Printed traces -/

theorem isWord_letter (kind : AccessKind) : IsWord [kind.letter] := by
  refine ⟨List.cons_ne_nil _ _, fun c hc => ?_⟩
  obtain rfl := List.mem_singleton.1 hc
  cases kind <;> rfl

theorem toList_hex (a : Word) : a.hex.toList = '0' :: 'x' :: numeral 16 a.toNat := by
  simp [Word.hex, hexadecimal]

theorem isBlank_of_mem_hex {a : Word} {c : Char} (h : c ∈ a.hex.toList) : isBlank c = false := by
  rw [toList_hex, List.mem_cons, List.mem_cons] at h
  obtain rfl | rfl | h := h
  · rfl
  · rfl
  · obtain ⟨d, hd⟩ := digit_of_numeralValue (numeralValue_numeral 16 _ (by decide) (by decide)) c h
    exact isBlank_of_digitValue hd

theorem isWord_hex (a : Word) : IsWord a.hex.toList := by
  refine ⟨?_, fun c hc => isBlank_of_mem_hex hc⟩
  rw [toList_hex]
  exact List.cons_ne_nil _ _

theorem toList_text (o : Operation) :
    o.text.toList = [o.kind.letter] ++ ([' '] ++ o.address.hex.toList) := by
  simp [Operation.text]

/-- A line that is printed stands for the operation it is printed from. -/
theorem lineSays_text (o : Operation) : LineSays false o.text.toList o := by
  have hnone : Blanks [] := fun _ hmem => absurd hmem List.not_mem_nil
  have hgap : Blanks [' '] := fun c hc => by
    obtain rfl := List.mem_singleton.1 hc
    rfl
  refine ⟨o.address.hex.toList, ?_, [], numeral 16 o.address.toNat, .inl rfl, toList_hex _,
    numeral_ne_nil _ _, numeralValue_numeral 16 _ (by decide) (by decide)⟩
  have haddress : Divided [o.address.hex.toList] ([' '] ++ o.address.hex.toList ++ []) :=
    .cons hgap (isWord_hex _) (fun _ hmem => nomatch hmem) (.nil hnone)
  have hline := Divided.cons hnone (isWord_letter o.kind) (fun c hc => ?_) haddress
  · rwa [List.nil_append, List.append_nil, ← toList_text] at hline
  · obtain rfl : ' ' = c := Option.some.inj hc
    rfl

theorem newline_notMem_text (o : Operation) : '\n' ∉ o.text.toList := by
  intro hmem
  rw [toList_text, List.mem_append, List.mem_append, List.mem_singleton, List.mem_singleton] at hmem
  obtain hletter | hspace | haddress := hmem
  · cases hkind : o.kind <;> rw [hkind] at hletter <;> cases hletter
  · cases hspace
  · cases isBlank_of_mem_hex haddress

theorem toList_traceText_cons (o : Operation) (ops : List Operation) :
    (traceText (o :: ops)).toList = o.text.toList ++ '\n' :: (traceText ops).toList := by
  simp [traceText]

/-- What is printed from some operations stands for these operations. -/
theorem traceSays_traceText (ops : List Operation) :
    TraceSays false (textLines (traceText ops).toList) ops := by
  induction ops with
  | nil => exact .blank (fun _ hmem => absurd hmem List.not_mem_nil) .nil
  | cons o ops ih =>
    rw [toList_traceText_cons, textLines_append _ _ (newline_notMem_text o)]
    exact .operation (lineSays_text o) ih

/-! ## Files -/

theorem bytesText?_textBytes (s : String) : bytesText? (textBytes s) = some s := by
  have hbytes : (textBytes s).map UInt8.ofBitVec = s.toUTF8.data := by
    rw [textBytes, Array.map_map]
    exact Array.map_id' _
  rw [bytesText?, hbytes]
  exact dif_pos s.isValidUTF8

theorem readTraceFile_textBytes (path s : String) :
    readTraceFile path (.ok (textBytes s)) =
      (readTrace s.toList).mapError fun (line, fault) => .malformed path line fault := by
  rw [readTraceFile]
  simp only [bytesText?_textBytes]

theorem readTraceFile_ok_iff {path s : String} {ops : List Operation} :
    readTraceFile path (.ok (textBytes s)) = .ok ops ↔
      TraceSays true (textLines s.toList) ops := by
  rw [readTraceFile_textBytes, ← operationsOfLines_ok_iff (n := 1), readTrace]
  cases operationsOfLines 1 (textLines s.toList) with
  | error e => exact ⟨fun h => (nomatch h), fun h => (nomatch h)⟩
  | ok ops' => exact ⟨fun h => congrArg _ (Except.ok.inj h), fun h => congrArg _ (Except.ok.inj h)⟩

theorem readTraceFile_error_iff {path s : String} {e : TraceError} :
    readTraceFile path (.ok (textBytes s)) = .error e ↔
      ∃ n fault, e = .malformed path n fault ∧ FirstFault true 1 (textLines s.toList) n fault := by
  simp only [readTraceFile_textBytes, ← operationsOfLines_error_iff, readTrace]
  cases operationsOfLines 1 (textLines s.toList) with
  | ok ops => exact ⟨fun h => (nomatch h), fun ⟨_, _, _, h⟩ => (nomatch h)⟩
  | error refusal =>
    obtain ⟨n, fault⟩ := refusal
    constructor
    · intro h
      exact ⟨n, fault, (Except.error.inj h).symm, rfl⟩
    · rintro ⟨n', fault', rfl, h⟩
      cases h
      rfl

/-- The lines of a text are read exactly if each of them is white space or consists of the letter of
a kind of access and an address word, and what is read are the operations that the lines stand for.
Otherwise the first line at fault is refused, by its number from one on. A plus sign between `0x`
and the digits is read over: without one anywhere in the text, address words are `0x` and digits and
nothing else. What is printed from some operations is read back. -/
theorem readTraceFile_exact (path : String) :
    (∀ s : String, ∃ lines, (∀ ls, LinesOf s.toList ls ↔ ls = lines) ∧
      (∀ ops, readTraceFile path (.ok (textBytes s)) = .ok ops ↔ TraceSays true lines ops) ∧
      (∀ e, readTraceFile path (.ok (textBytes s)) = .error e ↔
        ∃ n fault, e = .malformed path n fault ∧ FirstFault true 1 lines n fault) ∧
      ∀ ops, TraceSays false lines ops ↔ TraceSays true lines ops ∧ '+' ∉ s.toList) ∧
    ∀ ops, readTraceFile path (.ok (textBytes (traceText ops))) = .ok ops := by
  refine ⟨fun s => ⟨textLines s.toList, fun ls => linesOf_iff, fun ops => readTraceFile_ok_iff,
    fun e => readTraceFile_error_iff, fun ops => ?_⟩, fun ops => ?_⟩
  · rw [traceSays_unsigned_iff, mem_textLines_iff (by decide)]
  · exact readTraceFile_ok_iff.2 (traceSays_unsigned_iff.1 (traceSays_traceText ops)).1

/-- A line with `0x+10` is read, although it stands for no operation once a plus sign may not stand
before the digits. -/
theorem readTraceFile_signed :
    readTraceFile "trace.txt" (.ok (textBytes "r 0x+10")) = .ok [⟨.read, 0x10⟩] ∧
      ∀ lines ops, LinesOf "r 0x+10".toList lines → ¬ TraceSays false lines ops := by
  constructor
  · rw [readTraceFile_textBytes]
    rfl
  · intro lines ops hlines h
    obtain ⟨-, hplus⟩ := traceSays_unsigned_iff.1 h
    rw [linesOf_iff.1 hlines, mem_textLines_iff (by decide)] at hplus
    exact hplus (by decide)

end FiveStage
