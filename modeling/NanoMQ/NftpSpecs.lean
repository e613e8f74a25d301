import NanoMQ.NftpLoops

/-!
# The positional operations of the vector

What taking from the tail, inserting, deleting, reading, searching and appending another vector do
to a ring, in terms of its contents. Except where they are refused, these operations index the array
without the modulus: on contents in one piece they do what they should, and on contents that go
around the end of the array they leave it.
-/

namespace NanoMQ

open RingBuffer

section Specs

variable {α : Type*} {v : NftpVec α}

theorem NftpVec.Ring.exists_append (h : v.Ring) (hfit : v.low + v.len ≤ v.cap) :
    ∃ a c, v.vec = a ++ (v.contents ++ c) ∧ a.length = v.low := by
  obtain ⟨a, b, c, hvec, ha, hb⟩ := exists_append_of_le (h.cells ▸ hfit)
  have hcontents : v.contents = b := by
    rw [NftpVec.contents, hvec, ← ha, ← hb, contents_append]
  exact ⟨a, c, by rw [hcontents, hvec], ha⟩

/-- Cells put in place of the contents are the contents. -/
theorem contents_eq_of_append {vec a b c : List (Option α)} {cap len low : ℕ}
    (hvec : vec = a ++ (b ++ c)) (ha : a.length = low) (hb : b.length = len) :
    NftpVec.contents ⟨cap, len, low, vec⟩ = b := by
  rw [NftpVec.contents]
  dsimp only
  rw [hvec, ← ha, ← hb, contents_append]

theorem nftpVecPop_tail (h : v.Ring) (hlen : v.len ≠ 0) (hfit : v.low + v.len ≤ v.cap) :
    ∃ x v', nftpVecPop v nftpTail = some (.ok, some x, v') ∧ v'.Ring ∧
      v.contents = v'.contents ++ [x] := by
  have hpos : 0 < v.len := Nat.pos_of_ne_zero hlen
  have hlt : v.low + v.len - 1 < v.vec.length := by
    rw [h.cells]
    omega
  obtain ⟨x, hx⟩ : ∃ x, v.vec[v.low + v.len - 1]? = some x := ⟨_, List.getElem?_eq_getElem hlt⟩
  have hindex : (v.low + (v.len - 1)) % v.vec.length = v.low + v.len - 1 := by
    rw [← Nat.add_sub_assoc hpos, Nat.mod_eq_of_lt hlt]
  have hshort : v.len - 1 < v.vec.length := by
    rw [h.cells]
    omega
  have hlast : v.contents = RingBuffer.contents v.vec v.low (v.len - 1) ++ [x] := by
    have hsucc := contents_succ v.low hshort (by rwa [hindex])
    rwa [Nat.sub_add_cancel hpos] at hsucc
  have hset := contents_set_of_le v.low (none : Option α) (le_refl (v.len - 1)) hshort
  rw [hindex] at hset
  refine ⟨x, ⟨v.cap, v.len - 1, v.low, v.vec.set (v.low + v.len - 1) none⟩, ?_, ?_, ?_⟩
  · rw [nftpVecPop, if_neg hlen, if_neg (by decide), if_pos rfl, NftpVec.fetch, hx,
      Option.bind_eq_bind, Option.bind_some, setCell_of_lt hlt]
    rfl
  · exact ⟨h.cap, by rw [List.length_set, h.cells], h.low, Nat.le_trans (Nat.sub_le _ _) h.len⟩
  · rw [hlast, NftpVec.contents, hset]

theorem nftpVecPop_tail_none (h : v.Ring) (hwrap : v.cap < v.low + v.len) :
    nftpVecPop v nftpTail = none := by
  have hlow := h.low
  rw [nftpVecPop, if_neg (by omega), if_neg (by decide), if_pos rfl, NftpVec.fetch,
    List.getElem?_eq_none (by rw [h.cells]; omega)]
  rfl

theorem nftpVecInsert_of_full (hfull : v.cap < v.low + v.len + 1) (entry : Option α)
    (pos : Int32) : nftpVecInsert v entry pos = some (.overflow, v) := if_pos hfull

/-- A negative position is larger than every length when it is compared with one. -/
theorem le_sizeT_of_outside {n : ℕ} (hn : n ≤ nftpSize) {pos : Int32}
    (hpos : pos.toInt < 0 ∨ n ≤ pos.toInt) : n ≤ sizeT pos.toInt := by
  rcases lt_or_ge pos.toInt 0 with hneg | hnonneg
  · exact hn.trans (lt_sizeT_of_neg hneg).le
  · rw [sizeT_toInt hnonneg]
    omega

theorem nftpVecInsert_behind (h : v.Ring) (hroom : v.low + v.len + 1 ≤ v.cap) (entry : Option α)
    (pos : Int32) (hpos : pos.toInt < 0 ∨ v.len < pos.toInt) :
    nftpVecInsert v entry pos = nftpVecPush v entry nftpTail := by
  have hcap := h.cap
  have hbehind : v.len < sizeT pos.toInt := le_sizeT_of_outside (by omega) (by omega)
  rw [nftpVecInsert, if_neg (by omega), if_pos hbehind]

theorem nftpVecInsert_at (h : v.Ring) (hroom : v.low + v.len + 1 ≤ v.cap) (entry : Option α)
    {pos : Int32} (hpos : 0 ≤ pos.toInt) (hle : pos.toInt ≤ v.len) :
    ∃ v', nftpVecInsert v entry pos = some (.ok, v') ∧ v'.Ring ∧
      v'.contents =
        v.contents.take pos.toInt.toNat ++ entry :: v.contents.drop pos.toInt.toNat := by
  obtain ⟨a, c, hvec, ha⟩ := h.exists_append (by omega)
  have hlen := h.length_contents
  have hle' : pos.toInt.toNat ≤ v.len := by omega
  have hcells := congrArg List.length hvec
  rw [List.length_append, List.length_append, h.cells] at hcells
  obtain ⟨z, c, rfl⟩ := List.exists_cons_of_length_pos (show 0 < c.length by omega)
  -- The contents before and behind the position.
  obtain ⟨front, back, hsplit, hfront, hback⟩ := exists_split (hlen ▸ hle')
  rw [hlen] at hback
  obtain ⟨w, hw⟩ := shiftUp_append (a ++ front) back z c
  rw [List.length_append, List.append_assoc, List.append_assoc] at hw
  have hwrite := setCell_length_append (a ++ front) w entry (back ++ c)
  rw [List.length_append, List.append_assoc, List.append_assoc] at hwrite
  have htop : v.low + v.len = a.length + front.length + back.length := by omega
  have hslot : v.low + pos.toInt.toNat = a.length + front.length := by omega
  refine ⟨⟨v.cap, v.len + 1, v.low, a ++ (front ++ entry :: (back ++ c))⟩, ?_, ?_, ?_⟩
  · rw [nftpVecInsert, if_neg (by omega), if_neg (by rw [sizeT_toInt hpos]; omega), ← hback, htop,
      hslot, hvec, hsplit, List.append_assoc, hw, Option.bind_eq_bind, Option.bind_some, hwrite]
    rfl
  · refine ⟨h.cap, ?_, h.low, ?_⟩
    · simp only [List.length_append, List.length_cons] at hcells hsplit ⊢
      omega
    · dsimp only
      omega
  · rw [contents_eq_of_append (b := front ++ entry :: back) (c := c) (by simp) ha
      (by rw [List.length_append, List.length_cons]; omega), hsplit, ← hfront, List.take_left,
      List.drop_left]

theorem sizeT_pred (h : v.Ring) (hlen : v.len ≠ 0) : sizeT (v.len - 1) = v.len - 1 := by
  have hcap := h.cap
  have hle := h.len
  rw [nftpSize] at hcap
  rw [sizeT_of_nonneg (by omega) (by omega)]
  omega

theorem nftpVecDelete_refused (h : v.Ring) {pos : Int32}
    (hpos : pos.toInt < 0 ∨ v.len ≠ 0 ∧ v.len ≤ pos.toInt) :
    nftpVecDelete v pos = some (.overflow, none, v) := by
  apply if_pos
  rcases hpos with hneg | ⟨hlen, hge⟩
  · exact Or.inl hneg
  · right
    rw [sizeT_pred h hlen, sizeT_toInt (by omega)]
    omega

/-- The length of an empty vector less one is larger than every position. -/
theorem nftpVecDelete_empty (hlen : v.len = 0) {pos : Int32} (hpos : 0 ≤ pos.toInt) :
    nftpVecDelete v pos = v.vec[v.low + pos.toInt.toNat]?.map (fun entry =>
      (.ok, some entry, { v with len := 18446744073709551615 })) := by
  have hlt := pos.toInt_lt
  have hsize : sizeT ((v.len : ℤ) - 1) = 18446744073709551615 := by
    rw [hlen]
    rfl
  rw [nftpVecDelete, hsize, if_neg (by rw [sizeT_toInt hpos]; omega), hlen, Nat.zero_sub, shiftDown]
  cases v.vec[v.low + pos.toInt.toNat]? <;> rfl

section InRange

variable (h : v.Ring) {pos : Int32} (hpos : 0 ≤ pos.toInt) (hlt : pos.toInt < v.len)

include h hpos hlt

theorem nftpVecDelete_guard : ¬ (pos.toInt < 0 ∨ sizeT (v.len - 1) < sizeT pos.toInt) := by
  rw [sizeT_pred h (by omega), sizeT_toInt hpos]
  omega

theorem nftpVecDelete_at (hfit : v.low + v.len ≤ v.cap) :
    ∃ x v', nftpVecDelete v pos = some (.ok, some x, v') ∧ v'.Ring ∧
      v.contents[pos.toInt.toNat]? = some x ∧
      v'.contents = v.contents.eraseIdx pos.toInt.toNat := by
  obtain ⟨a, c, hvec, ha⟩ := h.exists_append hfit
  have hlen := h.length_contents
  have hcells := congrArg List.length hvec
  rw [List.length_append, List.length_append, h.cells] at hcells
  obtain ⟨front, rest, hsplit, hfront, hrest⟩ :=
    exists_split (show pos.toInt.toNat ≤ v.contents.length by omega)
  obtain ⟨x, back, rfl⟩ := List.exists_cons_of_length_pos (show 0 < rest.length by omega)
  have hback : v.len - (pos.toInt.toNat + 1) = back.length := by
    rw [List.length_cons] at hrest
    omega
  obtain ⟨z, hz⟩ := shiftDown_append (a ++ front) x back c
  have hread := getElem?_length_append (a ++ front) x (back ++ c)
  rw [List.length_append, List.append_assoc, List.append_assoc] at hz
  rw [List.length_append, List.append_assoc] at hread
  have hslot : v.low + pos.toInt.toNat = a.length + front.length := by omega
  refine ⟨x, ⟨v.cap, v.len - 1, v.low, a ++ (front ++ (back ++ z :: c))⟩, ?_, ?_, ?_, ?_⟩
  · rw [nftpVecDelete, if_neg (nftpVecDelete_guard h hpos hlt), sizeT_pred h (by omega), hback,
      hslot, hvec, hsplit, List.append_assoc, List.cons_append, hread, Option.bind_eq_bind,
      Option.bind_some, hz]
    rfl
  · refine ⟨h.cap, ?_, h.low, Nat.le_trans (Nat.sub_le _ _) h.len⟩
    simp only [hsplit, List.length_append, List.length_cons] at hcells ⊢
    omega
  · rw [hsplit, ← hfront, getElem?_length_append]
  · rw [contents_eq_of_append (b := front ++ back) (c := z :: c) (by simp) ha
      (by rw [List.length_append]; omega), hsplit, ← hfront,
      List.eraseIdx_append_of_length_le le_rfl, Nat.sub_self, List.eraseIdx_cons_zero]

theorem nftpVecDelete_none (hwrap : v.cap < v.low + v.len) : nftpVecDelete v pos = none := by
  rw [nftpVecDelete, if_neg (nftpVecDelete_guard h hpos hlt), Option.bind_eq_bind]
  by_cases hcell : v.low + pos.toInt.toNat < v.vec.length
  · have hshift : shiftDown (v.len - (pos.toInt.toNat + 1)) (v.low + pos.toInt.toNat + 1) v.vec =
        none := shiftDown_none hcell (by rw [h.cells]; omega)
    rw [List.getElem?_eq_getElem hcell, Option.bind_some, hshift]
    rfl
  · rw [List.getElem?_eq_none (by omega)]
    rfl

omit h in
theorem nftpVecGet_eq :
    nftpVecGet v pos = v.vec[v.low + pos.toInt.toNat]?.map (fun entry => (.ok, some entry)) := by
  rw [nftpVecGet, if_neg (by rw [sizeT_toInt hpos]; omega), if_neg (by omega)]

theorem getElem?_contents_of_lt (hcell : v.low + pos.toInt < v.cap) :
    v.vec[v.low + pos.toInt.toNat]? = v.contents[pos.toInt.toNat]? := by
  rw [NftpVec.contents, getElem?_contents v.low (h.cells ▸ h.len) (by omega), h.cells,
    Nat.mod_eq_of_lt (by omega)]

end InRange

theorem nftpVecGet_refused (h : v.Ring) {pos : Int32}
    (hpos : ¬ (0 ≤ pos.toInt ∧ pos.toInt < v.len)) :
    nftpVecGet v pos = some (.overflow, none) := by
  have hcap := h.cap
  have hle := h.len
  exact if_pos (le_sizeT_of_outside (by omega) (by omega))

theorem NftpVec.Ring.take_contents (h : v.Ring) :
    (v.vec.drop v.low).take v.len = v.contents.take (v.cap - v.low) := by
  have hlow := h.low
  have hfirst : (v.vec.drop v.low ++ v.vec.take v.low).take (v.cap - v.low) = v.vec.drop v.low :=
    List.take_left' (by rw [List.length_drop, h.cells])
  rw [NftpVec.contents, RingBuffer.contents,
    List.rotate_eq_drop_append_take (by rw [h.cells]; omega), List.take_take, Nat.min_comm,
    ← List.take_take, hfirst]

theorem nftpVecGetidx_eq [DecidableEq α] (h : v.Ring) (entry : Option α) :
    nftpVecGetidx v entry =
      ((v.contents.take (v.cap - v.low)).idxOf? entry).elim
        (if v.low + v.len ≤ v.cap then some (.empty, none) else none)
        (fun k => some (.ok, some k)) := by
  rw [nftpVecGetidx, findCell_eq entry (by rw [h.cells]; exact h.low.le), h.take_contents, h.cells]
  cases (v.contents.take (v.cap - v.low)).idxOf? entry with
  | none =>
    by_cases hfit : v.low + v.len ≤ v.cap
    · simp only [Option.elim_none, if_pos hfit]
      rfl
    · simp only [Option.elim_none, if_neg hfit]
      rfl
  | some k =>
    show some (NftpRc.ok, some (v.low + k - v.low)) = _
    rw [Nat.add_sub_cancel_left]
    rfl

theorem nftpVecCat_of_full {sv : NftpVec α} (hfull : v.cap < v.low + v.len + sv.len) :
    nftpVecCat v sv = some (.overflow, v) := if_pos hfull

theorem nftpVecCat_of_room {sv : NftpVec α} (h : v.Ring) (hs : sv.Ring)
    (hroom : v.low + v.len + sv.len ≤ v.cap) (hfit : sv.low + sv.len ≤ sv.cap) :
    ∃ v', nftpVecCat v sv = some (.ok, v') ∧ v'.Ring ∧ v'.contents = v.contents ++ sv.contents := by
  obtain ⟨a, c, hvec, ha⟩ := h.exists_append (by omega)
  obtain ⟨p, r, hsvec, hp⟩ := hs.exists_append hfit
  have hlen := h.length_contents
  have hslen := hs.length_contents
  have hcells := congrArg List.length hvec
  rw [List.length_append, List.length_append, h.cells] at hcells
  have hspare : (c.take sv.len).length = sv.contents.length := by
    rw [List.length_take]
    omega
  have hcopy := copyCells_append p sv.contents r (a ++ v.contents) (c.take sv.len) (c.drop sv.len)
    hspare
  rw [List.take_append_drop, List.length_append, List.append_assoc, List.append_assoc, ← hvec,
    ← hsvec, hslen, hp, ha, hlen] at hcopy
  refine ⟨⟨v.cap, v.len + sv.len, v.low, a ++ (v.contents ++ (sv.contents ++ c.drop sv.len))⟩,
    ?_, ?_, ?_⟩
  · rw [nftpVecCat, if_neg (by omega), hcopy]
    rfl
  · refine ⟨h.cap, ?_, h.low, ?_⟩
    · simp only [List.length_append, List.length_drop]
      omega
    · dsimp only
      omega
  · rw [contents_eq_of_append (b := v.contents ++ sv.contents) (c := c.drop sv.len)
      (by rw [List.append_assoc]) ha (by rw [List.length_append, hlen, hslen])]

theorem nftpVecCat_none {sv : NftpVec α} (hs : sv.Ring)
    (hroom : v.low + v.len + sv.len ≤ v.cap) (hwrap : sv.cap < sv.low + sv.len) :
    nftpVecCat v sv = none := by
  have hlow := hs.low
  rw [nftpVecCat, if_neg (by omega), copyCells_none (by rw [hs.cells]; omega)
    (by rw [hs.cells]; omega)]
  rfl

end Specs

end NanoMQ
