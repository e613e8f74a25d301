import NanoMQ.RingBuffer

/-!
# The vector of the DDS gateway

`nftp_vec` keeps pointers in an array of a fixed capacity, from `low` on. Appending and taking from
the front index the array modulo its capacity; every other operation does not. A pointer is an
option, null being `none`, and an operation that touches a cell outside the array is undefined,
which `none` around its result stands for. Sizes are natural numbers; where one is compared to an
`int`, the `int` is converted first, and the length of an empty vector less one wraps.
-/

namespace NanoMQ

open RingBuffer

inductive NftpRc
  | ok | overflow | empty | flag
  deriving DecidableEq

structure NftpVec (α : Type*) where
  cap : ℕ
  len : ℕ
  low : ℕ
  vec : List (Option α)
  deriving DecidableEq

def nftpSize : ℕ := 128

def nftpHead : Int32 := -1

def nftpTail : Int32 := 0x7FFFFFFF

/-- The `size_t` that an `int` or a difference of sizes is converted to. -/
def sizeT (n : ℤ) : ℕ := (n % 18446744073709551616).toNat

section Functions

variable {α : Type*}

def setCell {β : Type*} (vec : List β) (i : ℕ) (x : β) : Option (List β) :=
  if i < vec.length then some (vec.set i x) else none

/-- `nftp_vec_alloc`; the cells hold what the memory held before. -/
def nftpVecAlloc (memory : Fin nftpSize → Option α) : NftpVec α :=
  ⟨nftpSize, 0, nftpSize / 4, List.ofFn memory⟩

def NftpVec.store (v : NftpVec α) (pos : ℕ) (entry : Option α) : Option (NftpRc × NftpVec α) :=
  (setCell v.vec pos entry).map (fun vec => (.ok, { v with len := v.len + 1, vec := vec }))

def nftpVecPush (v : NftpVec α) (entry : Option α) (flag : Int32) : Option (NftpRc × NftpVec α) :=
  if flag = nftpHead then
    if v.low = 0 then some (.overflow, v)
    else NftpVec.store { v with low := v.low - 1 } (v.low - 1) entry
  else if flag = nftpTail then
    if v.cap ≤ v.len then some (.overflow, v) else v.store ((v.low + v.len) % v.cap) entry
  else some (.flag, v)

def nftpVecAppend (v : NftpVec α) (entry : Option α) : Option (NftpRc × NftpVec α) :=
  nftpVecPush v entry nftpTail

def NftpVec.fetch (v : NftpVec α) (pos : ℕ) :
    Option (NftpRc × Option (Option α) × NftpVec α) := do
  let entry ← v.vec[pos]?
  let vec ← setCell v.vec pos none
  return (.ok, some entry, { v with len := v.len - 1, vec := vec })

/-- `nftp_vec_pop`, with what is stored to `entryp` if anything is. -/
def nftpVecPop (v : NftpVec α) (flag : Int32) : Option (NftpRc × Option (Option α) × NftpVec α) :=
  if v.len = 0 then some (.empty, none, v)
  else if flag = nftpHead then NftpVec.fetch { v with low := (v.low + 1) % v.cap } v.low
  else if flag = nftpTail then v.fetch (v.low + v.len - 1)
  else some (.flag, none, v)

/-- The loop of `nftp_vec_insert`: `count` cells, the last of them at `i - 1`, move up. -/
def shiftUp {β : Type*} : ℕ → ℕ → List β → Option (List β)
  | 0, _, vec => some vec
  | count + 1, i, vec => do
      let x ← vec[i - 1]?
      let vec ← setCell vec i x
      shiftUp count (i - 1) vec

def nftpVecInsert (v : NftpVec α) (entry : Option α) (pos : Int32) : Option (NftpRc × NftpVec α) :=
  if v.cap < v.low + v.len + 1 then some (.overflow, v)
  else if v.len < sizeT pos.toInt then nftpVecPush v entry nftpTail
  else do
    let vec ← shiftUp (v.len - pos.toInt.toNat) (v.low + v.len) v.vec
    let vec ← setCell vec (v.low + pos.toInt.toNat) entry
    return (.ok, { v with len := v.len + 1, vec := vec })

def shiftDown {β : Type*} : ℕ → ℕ → List β → Option (List β)
  | 0, _, vec => some vec
  | count + 1, i, vec => do
      let x ← vec[i]?
      let vec ← setCell vec (i - 1) x
      shiftDown count (i + 1) vec

def nftpVecDelete (v : NftpVec α) (pos : Int32) : Option (NftpRc × Option (Option α) × NftpVec α) :=
  if pos.toInt < 0 ∨ sizeT (v.len - 1) < sizeT pos.toInt then some (.overflow, none, v)
  else do
    let entry ← v.vec[v.low + pos.toInt.toNat]?
    let vec ← shiftDown (v.len - (pos.toInt.toNat + 1)) (v.low + pos.toInt.toNat + 1) v.vec
    return (.ok, some entry, { v with len := sizeT (v.len - 1), vec := vec })

def nftpVecGet (v : NftpVec α) (idx : Int32) : Option (NftpRc × Option (Option α)) :=
  if v.len ≤ sizeT idx.toInt then some (.overflow, none)
  else if idx.toInt < 0 then some (.overflow, none)
  else v.vec[v.low + idx.toInt.toNat]?.map (fun entry => (.ok, some entry))

def findCell [DecidableEq α] (vec : List (Option α)) (entry : Option α) :
    ℕ → ℕ → Option (Option ℕ)
  | 0, _ => some none
  | count + 1, i =>
      vec[i]?.bind (fun x => if x = entry then some (some i) else findCell vec entry count (i + 1))

def nftpVecGetidx [DecidableEq α] (v : NftpVec α) (entry : Option α) :
    Option (NftpRc × Option ℕ) :=
  (findCell v.vec entry v.len v.low).map (fun found =>
    match found with
    | some i => (.ok, some (i - v.low))
    | none => (.empty, none))

def copyCells {β : Type*} (src : List β) : ℕ → ℕ → ℕ → List β → Option (List β)
  | 0, _, _, dst => some dst
  | count + 1, i, j, dst => do
      let x ← src[i]?
      let dst ← setCell dst j x
      copyCells src count (i + 1) (j + 1) dst

def nftpVecCat (dv sv : NftpVec α) : Option (NftpRc × NftpVec α) :=
  if dv.cap < dv.low + dv.len + sv.len then some (.overflow, dv)
  else (copyCells sv.vec sv.len sv.low (dv.low + dv.len) dv.vec).map (fun vec =>
    (.ok, { dv with len := dv.len + sv.len, vec := vec }))

def nftpVecLen (v : NftpVec α) : ℕ := v.len

end Functions

/-- What a vector holds, from `low` on and around the end of the array. -/
def NftpVec.contents {α : Type*} (v : NftpVec α) : List (Option α) :=
  RingBuffer.contents v.vec v.low v.len

/-- The start is a cell, and no more cells are used than there are. -/
structure NftpVec.Ring {α : Type*} (v : NftpVec α) : Prop where
  cap : v.cap = nftpSize
  cells : v.vec.length = v.cap
  low : v.low < v.cap
  len : v.len ≤ v.cap

section Specs

variable {α : Type*} {v : NftpVec α}

theorem sizeT_of_nonneg {n : ℤ} (h : 0 ≤ n) (hlt : n < 18446744073709551616) :
    sizeT n = n.toNat := by
  rw [sizeT, Int.emod_eq_of_lt h hlt]

/-- A negative `int` becomes larger than any length. -/
theorem lt_sizeT_of_neg {pos : Int32} (h : pos.toInt < 0) : nftpSize < sizeT pos.toInt := by
  have hle := pos.le_toInt
  rw [sizeT, nftpSize]
  omega

theorem sizeT_toInt {pos : Int32} (h : 0 ≤ pos.toInt) : sizeT pos.toInt = pos.toInt.toNat := by
  have hlt := pos.toInt_lt
  exact sizeT_of_nonneg h (by omega)

theorem setCell_of_lt {β : Type*} {vec : List β} {i : ℕ} (h : i < vec.length) (x : β) :
    setCell vec i x = some (vec.set i x) := if_pos h

theorem NftpVec.Ring.length_contents (h : v.Ring) : v.contents.length = v.len :=
  RingBuffer.length_contents v.low (h.cells ▸ h.len)

theorem nftpVecAlloc_ring (memory : Fin nftpSize → Option α) : (nftpVecAlloc memory).Ring where
  cap := rfl
  cells := List.length_ofFn
  low := by
    show nftpSize / 4 < nftpSize
    decide
  len := Nat.zero_le _

theorem nftpVecPush_tail_of_lt (h : v.Ring) (hlen : v.len < v.cap) (entry : Option α) :
    ∃ v', nftpVecPush v entry nftpTail = some (.ok, v') ∧ v'.Ring ∧
      v'.contents = v.contents ++ [entry] := by
  have hpos : (v.low + v.len) % v.cap < v.vec.length := by
    rw [h.cells]
    exact Nat.mod_lt _ (by omega)
  have hback := contents_pushBack v.low entry (show v.len < v.vec.length by rwa [h.cells])
  rw [h.cells] at hback
  refine ⟨⟨v.cap, v.len + 1, v.low, v.vec.set ((v.low + v.len) % v.cap) entry⟩, ?_, ?_, hback⟩
  · rw [nftpVecPush, if_neg (by decide), if_pos rfl, if_neg (by omega), NftpVec.store,
      setCell_of_lt hpos]
    rfl
  · exact ⟨h.cap, by rw [List.length_set, h.cells], h.low, hlen⟩

theorem nftpVecPush_tail_of_le (hlen : v.cap ≤ v.len) (entry : Option α) :
    nftpVecPush v entry nftpTail = some (.overflow, v) := by
  rw [nftpVecPush, if_neg (by decide), if_pos rfl, if_pos hlen]

/-- An entry is appended behind the others, or a full vector stays as it is. -/
theorem exists_nftpVecAppend (h : v.Ring) (entry : Option α) :
    ∃ rc v', nftpVecAppend v entry = some (rc, v') ∧ v'.Ring ∧
      (v.len < v.cap ∧ v'.contents = v.contents ++ [entry] ∨ v.cap ≤ v.len ∧ v' = v) := by
  rcases Nat.lt_or_ge v.len v.cap with hroom | hfull
  · obtain ⟨v', hv', hring, hcontents⟩ := nftpVecPush_tail_of_lt h hroom entry
    exact ⟨_, v', hv', hring, Or.inl ⟨hroom, hcontents⟩⟩
  · exact ⟨_, v, nftpVecPush_tail_of_le hfull entry, h, Or.inr ⟨hfull, rfl⟩⟩

theorem nftpVecPush_head_of_zero (hlow : v.low = 0) (entry : Option α) :
    nftpVecPush v entry nftpHead = some (.overflow, v) := by
  rw [nftpVecPush, if_pos rfl, if_pos hlow]

theorem nftpVecPush_head_of_pos (h : v.Ring) (hlow : v.low ≠ 0) (entry : Option α) :
    nftpVecPush v entry nftpHead =
      some (.ok, ⟨v.cap, v.len + 1, v.low - 1, v.vec.set (v.low - 1) entry⟩) := by
  have hlt := h.low
  rw [nftpVecPush, if_pos rfl, if_neg hlow, NftpVec.store,
    setCell_of_lt (show v.low - 1 < v.vec.length by rw [h.cells]; omega)]
  rfl

theorem contents_push_head (h : v.Ring) (hlow : v.low ≠ 0) (hlen : v.len < v.cap)
    (entry : Option α) :
    NftpVec.contents ⟨v.cap, v.len + 1, v.low - 1, v.vec.set (v.low - 1) entry⟩ =
      entry :: v.contents := by
  have hlt := h.low
  have hfront := contents_pushFront (v.low - 1) entry
    (show v.len < v.vec.length by rwa [h.cells]) (by rw [h.cells]; omega)
  rwa [Nat.sub_add_cancel (Nat.pos_of_ne_zero hlow)] at hfront

theorem nftpVecPop_of_empty (hlen : v.len = 0) (flag : Int32) :
    nftpVecPop v flag = some (.empty, none, v) := if_pos hlen

theorem NftpVec.Ring.getElem?_low (h : v.Ring) : ∃ x, v.vec[v.low]? = some x := by
  have hlt : v.low < v.vec.length := by
    rw [h.cells]
    exact h.low
  exact ⟨_, List.getElem?_eq_getElem hlt⟩

theorem nftpVecPop_head (h : v.Ring) (hlen : v.len ≠ 0) :
    ∃ x v', nftpVecPop v nftpHead = some (.ok, some x, v') ∧ v'.Ring ∧
      v.contents = x :: v'.contents := by
  have hlow := h.low
  have hle := h.len
  obtain ⟨x, hx⟩ := h.getElem?_low
  have hfront := contents_popFront none (show v.len - 1 < v.vec.length by rw [h.cells]; omega)
    (by rwa [h.cells]) hx
  rw [Nat.sub_add_cancel (Nat.pos_of_ne_zero hlen), h.cells] at hfront
  refine ⟨x, ⟨v.cap, v.len - 1, (v.low + 1) % v.cap, v.vec.set v.low none⟩, ?_, ?_, hfront⟩
  · rw [nftpVecPop, if_neg hlen, if_pos rfl, NftpVec.fetch, hx]
    dsimp only [Option.bind_eq_bind, Option.bind_some]
    rw [setCell_of_lt (by rwa [h.cells])]
    rfl
  · refine ⟨h.cap, by rw [List.length_set, h.cells], Nat.mod_lt _ (by omega), ?_⟩
    dsimp only
    omega

end Specs

end NanoMQ
