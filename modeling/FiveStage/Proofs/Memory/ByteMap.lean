import FiveStage.Memory.Sparse

/-!
# Pages as one map of bytes

* `ByteMap`, `ByteMap.store`, `ByteMap.read` : a byte for every address, with addresses that wrap;
  `littleEndian`, `littleBytes` : numbers as bytes;
* `Memory.byte_writeBytes_eq_store` : a run of bytes stored in pages, whatever its length;
  `Memory.byte_writeBytes` : one that does not come back to where it starts;
* `runByte?`, `Memory.byte_writeRuns` : several runs, one over the other.
-/

namespace FiveStage

/-! ## Maps of bytes -/

/-- A byte for every address. -/
abbrev ByteMap := Word → Byte

/-- The number whose bytes these are, the low one first. -/
def littleEndian : List Byte → Nat
  | [] => 0
  | b :: rest => b.toNat + 256 * littleEndian rest

/-- The `n` low bytes of a number, the low one first. -/
def littleBytes (n v : Nat) : List Byte := (List.range n).map fun i => BitVec.ofNat 8 (v / 256 ^ i)

@[simp] theorem length_littleBytes (n v : Nat) : (littleBytes n v).length = n := by
  rw [littleBytes, List.length_map, List.length_range]

theorem littleBytes_succ (n v : Nat) :
    littleBytes (n + 1) v = BitVec.ofNat 8 v :: littleBytes n (v / 256) := by
  rw [littleBytes, List.range_succ_eq_map, List.map_cons, List.map_map, Nat.pow_zero, Nat.div_one]
  refine congrArg _ (List.map_congr_left fun i _ => ?_)
  rw [Function.comp, Nat.pow_succ', Nat.div_div_eq_div_mul]

theorem littleEndian_littleBytes (n v : Nat) : littleEndian (littleBytes n v) = v % 256 ^ n := by
  induction n generalizing v with
  | zero => rw [Nat.pow_zero, Nat.mod_one]; rfl
  | succ n ih =>
    have hmod : v % 256 ^ (n + 1) = v % 256 + 256 * (v / 256 % 256 ^ n) := by
      rw [Nat.pow_succ', Nat.mod_mul]
    rw [hmod, littleBytes_succ, littleEndian, ih, BitVec.toNat_ofNat]

namespace ByteMap

/-- Zero everywhere. -/
def zero : ByteMap := fun _ => 0

/-- Stores bytes one after the other from an address on. -/
def store (f : ByteMap) (a : Word) : List Byte → ByteMap
  | [] => f
  | v :: rest => store (fun x => if x = a then v else f x) (a + 1) rest

/-- The `n` bytes from an address on. -/
def read (f : ByteMap) (a : Word) (n : Nat) : List Byte :=
  (List.range n).map fun i => f (a + BitVec.ofNat 64 i)

theorem store_append (f : ByteMap) (a : Word) (xs ys : List Byte) :
    f.store a (xs ++ ys) = (f.store a xs).store (a + BitVec.ofNat 64 xs.length) ys := by
  induction xs generalizing f a with
  | nil => simp [store]
  | cons v rest ih =>
    have hnext : a + 1 + BitVec.ofNat 64 rest.length =
        a + BitVec.ofNat 64 (v :: rest).length := by
      rw [List.length_cons, BitVec.add_assoc, Nat.add_comm rest.length, BitVec.ofNat_add]
      rfl
    rw [List.cons_append, store, ih, hnext, store]

/-- A run that does not come back to where it starts is found at its distance from there. -/
theorem store_apply (f : ByteMap) (a : Word) {bs : List Byte} (h : bs.length ≤ 2 ^ 64) (x : Word) :
    f.store a bs x = bs[(x - a).toNat]?.getD (f x) := by
  induction bs generalizing f a with
  | nil => rfl
  | cons v rest ih =>
    rw [List.length_cons] at h
    have ha := a.isLt
    have hx := x.isLt
    have hone : (1 : Word).toNat = 1 := rfl
    rw [store, ih _ _ (by omega)]
    by_cases hax : x = a
    · subst hax
      have hfar : rest.length ≤ (x - (x + 1)).toNat := by
        rw [BitVec.toNat_sub, BitVec.toNat_add, hone]
        omega
      rw [List.getElem?_eq_none hfar, if_pos rfl, BitVec.sub_self]
      rfl
    · have hne : x.toNat ≠ a.toNat := fun e => hax (BitVec.eq_of_toNat_eq e)
      have hnext : (x - a).toNat = (x - (a + 1)).toNat + 1 := by
        rw [BitVec.toNat_sub, BitVec.toNat_sub, BitVec.toNat_add, hone]
        omega
      rw [if_neg hax, hnext, List.getElem?_cons_succ]

end ByteMap

/-! ## Runs of bytes -/

namespace Memory

theorem byte_writeInPage_eq_store (m : Memory) {a : Word} {bs : List Byte}
    (h : a.pageOffset + bs.length ≤ pageSize) :
    (m.writeInPage a bs).byte = ByteMap.store m.byte a bs := by
  funext x
  have hlen : bs.length ≤ 2 ^ 64 := by
    rw [pageSize] at h
    omega
  rw [byte_writeInPage m h, ByteMap.store_apply _ _ hlen]

/-- Pages are filled in the order of the bytes, so that of several bytes for one address the last
one stays. -/
theorem byte_writePages_eq_store {n : Nat} {bs : List Byte} (hn : bs.length ≤ n) (m : Memory)
    (a : Word) : (writePages n m a bs).byte = ByteMap.store m.byte a bs := by
  induction n generalizing m a bs with
  | zero =>
    obtain rfl := List.length_eq_zero_iff.1 (Nat.le_zero.1 hn)
    rfl
  | succ n ih =>
    cases bs with
    | nil => rfl
    | cons v rest =>
      have ho := a.pageOffset_lt
      rw [List.length_cons] at hn
      rw [writePages]
      generalize hroom : pageSize - a.pageOffset = room
      have hrest : ((v :: rest).drop room).length ≤ n := by
        rw [List.length_drop, List.length_cons]
        omega
      have hpage : a.pageOffset + ((v :: rest).take room).length ≤ pageSize := by
        rw [List.length_take]
        omega
      rw [ih hrest, byte_writeInPage_eq_store m hpage]
      conv => rhs; rw [← List.take_append_drop room (v :: rest), ByteMap.store_append]
      by_cases hfull : room ≤ (v :: rest).length
      · rw [List.length_take, Nat.min_eq_left hfull]
      · rw [List.drop_eq_nil_of_le (Nat.le_of_not_le hfull)]
        rfl

theorem byte_writeBytes_eq_store (m : Memory) (a : Word) (bs : List Byte) :
    (m.writeBytes a bs).byte = ByteMap.store m.byte a bs :=
  byte_writePages_eq_store (Nat.le_refl _) m a

/-- A run of bytes is found again at its distance from where it starts. -/
theorem byte_writeBytes (m : Memory) (a : Word) (bs : List Byte) (h : bs.length ≤ 2 ^ 64)
    (x : Word) : (m.writeBytes a bs).byte x = bs[(x - a).toNat]?.getD (m.byte x) := by
  rw [byte_writeBytes_eq_store, ByteMap.store_apply _ _ h]

end Memory

/-! ## Several runs -/

/-- The byte that a run has for an address. -/
def runByte? (x : Word) (run : Word × List Byte) : Option Byte := run.2[(x - run.1).toNat]?

namespace Memory

variable {runs : List (Word × List Byte)}

/-- Of several runs with a byte for an address, the one that is written last tells it. -/
theorem byte_writeRuns (h : ∀ run ∈ runs, run.2.length ≤ 2 ^ 64) (m : Memory) (x : Word) :
    (runs.foldl (fun m run => m.writeBytes run.1 run.2) m).byte x =
      (runs.filterMap (runByte? x)).getLast?.getD (m.byte x) := by
  induction runs generalizing m with
  | nil => rfl
  | cons run rest ih =>
    obtain ⟨hrun, hrest⟩ := List.forall_mem_cons.1 h
    have hbyte : (m.writeBytes run.1 run.2).byte x = (runByte? x run).getD (m.byte x) :=
      m.byte_writeBytes _ _ hrun x
    rw [List.foldl_cons, ih hrest, hbyte]
    cases hx : runByte? x run with
    | none => rw [List.filterMap_cons_none hx, Option.getD_none]
    | some y =>
      rw [List.filterMap_cons_some hx, List.getLast?_cons, Option.getD_some, Option.getD_some]

/-- Where all runs agree with each other, and one of them or the memory has the byte, the order does
not matter. -/
theorem byte_writeRuns_of_agree (h : ∀ run ∈ runs, run.2.length ≤ 2 ^ 64) {m : Memory} {x : Word}
    {y : Byte} (hall : ∀ run ∈ runs, ∀ c, runByte? x run = some c → c = y)
    (hsome : m.byte x = y ∨ ∃ run ∈ runs, runByte? x run = some y) :
    (runs.foldl (fun m run => m.writeBytes run.1 run.2) m).byte x = y := by
  rw [byte_writeRuns h]
  cases hlast : (runs.filterMap (runByte? x)).getLast? with
  | some c =>
    obtain ⟨run, hrun, hc⟩ := List.mem_filterMap.1 (List.mem_of_getLast? hlast)
    exact hall run hrun c hc
  | none =>
    have hnone : ∀ run ∈ runs, runByte? x run = none :=
      List.filterMap_eq_nil_iff.1 (List.getLast?_eq_none_iff.1 hlast)
    refine hsome.resolve_right ?_
    rintro ⟨run, hrun, hy⟩
    rw [hnone run hrun] at hy
    cases hy

end Memory

end FiveStage
