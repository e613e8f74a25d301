import NanoMQ.CVector
import NanoMQ.SubCtx

/-!
# The vectors in which retained messages are collected

`sub_ctx_handle` collects the retained messages of all filters of a SUBSCRIBE in `msg_ret`. The
first vector that the tree returns is taken over as it is, and the elements of later ones are
appended to it. In between, the local pointer `retain` keeps what it had from the node before: it is
`NULL` or the vector that was taken over. The sqlite backend appends from the start and has no such
pointer. A vector is an object here, so that one that is used after it was freed is a fault.
-/

namespace NanoMQ

open ByteBuffer

structure RetainVecs where
  heap : OwnedHeap (List Msg)
  retain : Option ℕ
  msgRet : Option ℕ

namespace RetainVecs

section Collect

variable (moves : OwnedHeap (List Msg) → ℕ → Bool)

/-- The loop that appends the elements of a vector from an index on to `msg_ret`. It is left when
`msg_ret` is that vector itself. -/
def append (vec : ℕ) : ℕ → ℕ → RetainVecs → Option RetainVecs
  | 0, _, s => some s
  | fuel + 1, i, s =>
      if s.msgRet = some vec then some s
      else
        (s.heap.read vec).bind (fun xs =>
          match xs[i]? with
          | none => some s
          | some x =>
            (CVector.pushBack moves s.heap s.msgRet x).bind (fun r =>
              append vec fuel (i + 1) { s with heap := r.1, msgRet := some r.2 }))

def appendRetain (s : RetainVecs) : Option RetainVecs :=
  match s.retain with
  | none => some s
  | some vec => (s.heap.read vec).bind (fun xs => append moves vec xs.length 0 s)

def dropRetain (s : RetainVecs) : Option RetainVecs :=
  if s.retain ≠ s.msgRet then
    (s.heap.freeOpt s.retain).map (fun h => { s with heap := h, retain := none })
  else some s

/-- What `dbtree_find_retain` returns: a vector of its own, or `NULL`. -/
def lookup (found : Option (List Msg)) (s : RetainVecs) : RetainVecs :=
  match found with
  | none => { s with retain := none }
  | some xs => { s with heap := s.heap.alloc xs, retain := some s.heap.size }

/-- A node that the access control lets pass, with the tree as backend. Without a lookup, `retain`
is what the node before has left. -/
def collectTree (found : Option (Option (List Msg))) (s : RetainVecs) : Option RetainVecs :=
  let s := found.elim s (fun xs => s.lookup xs)
  let s := if s.msgRet = none then { s with msgRet := s.retain } else s
  (s.appendRetain moves).bind dropRetain

def collectSqlite (found : Option (Option (List Msg))) (s : RetainVecs) : Option RetainVecs :=
  match found.join with
  | none => some s
  | some xs =>
    (append moves s.heap.size xs.length 0 { s with heap := s.heap.alloc xs }).bind (fun t =>
      (t.heap.free s.heap.size).map (fun h => { t with heap := h }))

end Collect

/-- Between two nodes: `retain` is `NULL` or was taken over, `msg_ret` has these elements, and every
other vector that came up was freed. -/
structure Holds (h₀ : OwnedHeap (List Msg)) (s : RetainVecs) (ms : List Msg) : Prop where
  shared : s.retain = none ∨ s.retain = s.msgRet
  elems : CVector.elems s.heap s.msgRet = some ms
  moved : h₀.Moved s.heap none s.msgRet

section Proofs

variable {moves : OwnedHeap (List Msg) → ℕ → Bool} {h₀ : OwnedHeap (List Msg)} {s : RetainVecs}
  {ms xs : List Msg} {vec : ℕ}

theorem exists_append (hms : CVector.elems s.heap s.msgRet = some ms)
    (hvec : s.heap.read vec = some xs) (hne : s.msgRet ≠ some vec) {fuel i : ℕ}
    (hfuel : xs.length ≤ i + fuel) :
    ∃ t, append moves vec fuel i s = some t ∧ t.retain = s.retain ∧
      CVector.elems t.heap t.msgRet = some (ms ++ xs.drop i) ∧ t.heap.read vec = some xs ∧
      t.msgRet ≠ some vec ∧ s.heap.Moved t.heap s.msgRet t.msgRet := by
  induction fuel generalizing i s ms with
  | zero =>
    refine ⟨s, rfl, rfl, ?_, hvec, hne, .refl _ _⟩
    rw [List.drop_eq_nil_of_le (by omega), List.append_nil]
    exact hms
  | succ fuel ih =>
    rw [append, if_neg hne, hvec, Option.bind_some]
    cases hx : xs[i]? with
    | none =>
      refine ⟨s, rfl, rfl, ?_, hvec, hne, .refl _ _⟩
      rw [List.drop_eq_nil_of_le (List.getElem?_eq_none_iff.mp hx), List.append_nil]
      exact hms
    | some x =>
      obtain ⟨h', p, hpush, hread, hmoved⟩ := CVector.exists_pushBack moves hms x
      have hlt := OwnedHeap.lt_size_of_read hvec
      have hp : some p ≠ some vec := by
        intro heq
        rcases hmoved.place vec heq with hv | hle
        · exact hne hv
        · omega
      have hvec' : h'.read vec = some xs := by rw [hmoved.frame vec hlt hne, hvec]
      have hrest : xs.length ≤ (i + 1) + fuel := by omega
      obtain ⟨t, ht, hretain, helems, hread', hne', hmoved'⟩ :=
        ih (s := { s with heap := h', msgRet := some p }) hread hvec' hp hrest
      dsimp only
      rw [hpush]
      refine ⟨t, ht, hretain, ?_, hread', hne', hmoved.trans hmoved'⟩
      have hdrop : xs.drop i = x :: xs.drop (i + 1) := by
        rw [List.drop_eq_getElem?_toList_append, hx]
        rfl
      rw [helems, List.append_assoc, List.singleton_append, hdrop]

theorem append_self (hvec : s.msgRet = some vec) (fuel i : ℕ) :
    append moves vec fuel i s = some s := by
  cases fuel with
  | zero => rfl
  | succ fuel => exact if_pos hvec

/-- A vector that was taken over is neither appended nor freed. -/
theorem appendRetain_shared {heap : OwnedHeap (List Msg)} (hread : heap.read vec = some xs) :
    (appendRetain moves ⟨heap, some vec, some vec⟩).bind dropRetain =
      some ⟨heap, some vec, some vec⟩ := by
  rw [appendRetain]
  dsimp only
  rw [hread, Option.bind_some, append_self rfl, Option.bind_some]
  exact if_neg (not_not.mpr rfl)

theorem Holds.collect_idle (h : s.Holds h₀ ms) :
    ∃ t, RetainVecs.collectTree moves none s = some t ∧ t.Holds h₀ ms := by
  obtain ⟨heap, retain, msgRet⟩ := s
  obtain ⟨hshared, helems, hmoved⟩ := h
  dsimp only at hshared helems hmoved
  cases msgRet with
  | none =>
    obtain rfl : retain = none := hshared.elim id id
    exact ⟨⟨heap, none, none⟩, rfl, Or.inl rfl, helems, hmoved⟩
  | some vec =>
    rcases hshared with rfl | rfl
    · exact ⟨⟨heap, none, some vec⟩, rfl, Or.inl rfl, helems, hmoved⟩
    · have hread : heap.read vec = some ms := helems
      exact ⟨⟨heap, some vec, some vec⟩, appendRetain_shared hread, Or.inr rfl, helems, hmoved⟩

theorem Holds.collect_first (h : s.Holds h₀ ms) (hret : s.msgRet = none) (xs : List Msg) :
    ∃ t, RetainVecs.collectTree moves (some (some xs)) s = some t ∧ t.Holds h₀ (ms ++ xs) := by
  obtain ⟨heap, retain, msgRet⟩ := s
  obtain rfl : msgRet = none := hret
  obtain rfl : [] = ms := Option.some.inj h.elems
  have hread := heap.read_alloc_self xs
  exact ⟨⟨heap.alloc xs, some heap.size, some heap.size⟩, appendRetain_shared hread, Or.inr rfl,
    hread, h.moved.trans (.adopt heap xs)⟩

/-- The elements of a vector that was just returned are appended, and it is freed. -/
theorem exists_copy (moves : OwnedHeap (List Msg) → ℕ → Bool) {heap : OwnedHeap (List Msg)}
    {v : Option ℕ} (hms : CVector.elems heap v = some ms) (retain : Option ℕ) (xs : List Msg) :
    ∃ t h', append moves heap.size xs.length 0 ⟨heap.alloc xs, retain, v⟩ = some t ∧
      t.retain = retain ∧ t.msgRet ≠ some heap.size ∧ t.heap.free heap.size = some h' ∧
      CVector.elems h' t.msgRet = some (ms ++ xs) ∧ heap.Moved h' v t.msgRet := by
  obtain ⟨helems, hne⟩ := CVector.elems_alloc hms xs
  have hfuel : xs.length ≤ 0 + xs.length := by omega
  obtain ⟨t, ht, hretain, htelems, htread, htne, hmoved⟩ :=
    @exists_append moves ⟨heap.alloc xs, retain, v⟩ ms xs heap.size helems
      (heap.read_alloc_self xs) hne xs.length 0 hfuel
  obtain ⟨h', hfree⟩ := OwnedHeap.exists_free htread
  refine ⟨t, h', ht, hretain, htne, hfree, ?_, hmoved.of_temporary hfree⟩
  rw [CVector.elems_of_free hfree htne, htelems, List.drop_zero]

/-- A later vector is copied and freed. -/
theorem Holds.collect_later {p : ℕ} (h : s.Holds h₀ ms) (hret : s.msgRet = some p)
    (xs : List Msg) :
    ∃ t, RetainVecs.collectTree moves (some (some xs)) s = some t ∧ t.Holds h₀ (ms ++ xs) := by
  obtain ⟨heap, retain, msgRet⟩ := s
  obtain rfl : msgRet = some p := hret
  obtain ⟨t, h', ht, hretain, htne, hfree, helems, hmoved⟩ :=
    exists_copy moves h.elems (some heap.size) xs
  refine ⟨{ t with heap := h', retain := none }, ?_, Or.inl rfl, helems, h.moved.trans hmoved⟩
  change (appendRetain moves ⟨heap.alloc xs, some heap.size, some p⟩).bind dropRetain = _
  rw [appendRetain]
  dsimp only
  rw [heap.read_alloc_self xs, Option.bind_some, ht, Option.bind_some, dropRetain, hretain,
    if_pos htne.symm, OwnedHeap.freeOpt, hfree]
  rfl

theorem Holds.collectTree (h : s.Holds h₀ ms) (found : Option (Option (List Msg))) :
    ∃ t, RetainVecs.collectTree moves found s = some t ∧
      t.Holds h₀ (ms ++ found.join.getD []) := by
  cases found with
  | none =>
    rw [Option.join_none, Option.getD_none, List.append_nil]
    exact h.collect_idle
  | some vec =>
    cases vec with
    | none =>
      have hnull : Holds h₀ { s with retain := none } ms := ⟨Or.inl rfl, h.elems, h.moved⟩
      rw [Option.join_some, Option.getD_none, List.append_nil]
      exact hnull.collect_idle
    | some xs =>
      cases hret : s.msgRet with
      | none => exact h.collect_first hret xs
      | some p => exact h.collect_later hret xs

theorem Holds.collectSqlite (h : s.Holds h₀ ms) (hnull : s.retain = none)
    (found : Option (Option (List Msg))) :
    ∃ t, RetainVecs.collectSqlite moves found s = some t ∧
      t.Holds h₀ (ms ++ found.join.getD []) ∧ t.retain = none := by
  unfold RetainVecs.collectSqlite
  cases found.join with
  | none =>
    rw [Option.getD_none, List.append_nil]
    exact ⟨s, rfl, h, hnull⟩
  | some xs =>
    obtain ⟨heap, retain, msgRet⟩ := s
    obtain ⟨t, h', ht, hretain, -, hfree, helems, hmoved⟩ :=
      exists_copy moves h.elems retain xs
    have hnull' : t.retain = none := hretain.trans hnull
    refine ⟨{ t with heap := h' }, ?_, ⟨Or.inl hnull', helems, h.moved.trans hmoved⟩, hnull'⟩
    dsimp only
    rw [ht, Option.bind_some, hfree]
    rfl

end Proofs

end RetainVecs

end NanoMQ
