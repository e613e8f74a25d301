import NanoMQ.NftpOps

/-!
# Which operations on a vector are right

On a ring an operation is right exactly if it fits the state, and then it leaves a ring. So a run
from new vectors goes through rings as long as its operations fit, and the first operation that does
not fit is the first that goes wrong.
-/

namespace NanoMQ

open GuardedRun

/-- An operation on a ring is right exactly where it fits, and leaves a ring there. -/
structure VecOp.Sound {α : Type*} [DecidableEq α] (v : NftpVec α) (op : VecOp α) : Prop where
  right_iff : op.Right v ↔ op.Fits v
  ring : op.Fits v → ∀ v', vecStep v op = some v' → v'.Ring

section Steps

variable {α : Type*} [DecidableEq α] {v : NftpVec α}

theorem VecOp.sound_of_right {v' : NftpVec α} {op : VecOp α} (hfits : op.Fits v)
    (hright : op.Right v) (hstep : vecStep v op = some v') (hring : v'.Ring) : op.Sound v where
  right_iff := iff_of_true hright hfits
  ring := by
    intro _ v'' hv''
    rwa [← Option.some.inj (hstep.symm.trans hv'')]

theorem VecOp.sound_of_wrong {op : VecOp α} (hfits : ¬ op.Fits v) (hright : ¬ op.Right v) :
    op.Sound v where
  right_iff := iff_of_false hright hfits
  ring h := absurd h hfits

theorem VecOp.Right.exists_vecStep {op : VecOp α} (h : op.Right v) :
    ∃ v', vecStep v op = some v' := by
  cases op with
  | push entry flag =>
    obtain ⟨rc, v', hv', -⟩ := h
    exact ⟨v', by rw [vecStep, hv']; rfl⟩
  | append entry =>
    obtain ⟨rc, v', hv', -⟩ := h
    exact ⟨v', by rw [vecStep, hv']; rfl⟩
  | pop flag =>
    obtain ⟨rc, out, v', hv', -⟩ := h
    exact ⟨v', by rw [vecStep, hv']; rfl⟩
  | insert entry pos =>
    obtain ⟨rc, v', hv', -⟩ := h
    exact ⟨v', by rw [vecStep, hv']; rfl⟩
  | delete pos =>
    obtain ⟨rc, out, v', hv', -⟩ := h
    exact ⟨v', by rw [vecStep, hv']; rfl⟩
  | get idx =>
    obtain ⟨rc, out, hv', -⟩ := h
    exact ⟨v, by rw [vecStep, hv']; rfl⟩
  | getidx entry =>
    obtain ⟨rc, out, hv', -⟩ := h
    exact ⟨v, by rw [vecStep, hv']; rfl⟩

/-- An operation that is undefined is not right. -/
theorem VecOp.sound_of_none {op : VecOp α} (hfits : ¬ op.Fits v) (hnone : vecStep v op = none) :
    op.Sound v := by
  apply sound_of_wrong hfits
  intro hright
  obtain ⟨v', hv'⟩ := hright.exists_vecStep
  rw [hnone] at hv'
  cases hv'

theorem sound_append (h : v.Ring) (entry : Option α) : (VecOp.append entry).Sound v := by
  rcases Nat.lt_or_ge v.len v.cap with hlen | hlen
  · obtain ⟨v', hv', hring, hcontents⟩ := nftpVecPush_tail_of_lt h hlen entry
    have hstep : vecStep v (.append entry) = some v' := by
      rw [vecStep, nftpVecAppend, hv']
      rfl
    exact VecOp.sound_of_right trivial ⟨_, _, hv', Or.inl ⟨rfl, hcontents⟩⟩ hstep hring
  · have hv := nftpVecPush_tail_of_le hlen entry
    have hstep : vecStep v (.append entry) = some v := by
      rw [vecStep, nftpVecAppend, hv]
      rfl
    exact VecOp.sound_of_right trivial ⟨_, _, hv, Or.inr ⟨by decide, rfl⟩⟩ hstep h

theorem sound_push_head (h : v.Ring) (entry : Option α) :
    (VecOp.push entry nftpHead).Sound v := by
  by_cases hlow : v.low = 0
  · have hv := nftpVecPush_head_of_zero hlow entry
    have hstep : vecStep v (.push entry nftpHead) = some v := by
      rw [vecStep, hv]
      rfl
    exact VecOp.sound_of_right (fun _ => Or.inl hlow)
      ⟨_, _, hv, Or.inr (Or.inr ⟨by decide, rfl⟩)⟩ hstep h
  · have hv := nftpVecPush_head_of_pos h hlow entry
    have hlt := h.low
    by_cases hlen : v.len < v.cap
    · have hcontents := contents_push_head h hlow hlen entry
      have hstep : vecStep v (.push entry nftpHead) =
          some ⟨v.cap, v.len + 1, v.low - 1, v.vec.set (v.low - 1) entry⟩ := by
        rw [vecStep, hv]
        rfl
      refine VecOp.sound_of_right (fun _ => Or.inr hlen)
        ⟨_, _, hv, Or.inl ⟨rfl, rfl, hcontents⟩⟩ hstep ⟨h.cap, ?_, ?_, hlen⟩
      · rw [List.length_set, h.cells]
      · exact Nat.lt_of_le_of_lt (Nat.sub_le _ _) hlt
    · -- A full array has no place for one more entry.
      apply VecOp.sound_of_wrong
      · intro hfits
        rcases hfits rfl with hzero | hroom
        · exact hlow hzero
        · exact hlen hroom
      · rintro ⟨rc, v', hv', hcases⟩
        obtain ⟨rfl, rfl⟩ := Prod.mk.inj (Option.some.inj (hv.symm.trans hv'))
        rcases hcases with ⟨-, -, hcontents⟩ | ⟨-, hflag, -⟩ | ⟨hrc, -⟩
        · have hcount := congrArg List.length hcontents
          rw [List.length_cons, h.length_contents, NftpVec.contents, RingBuffer.contents,
            List.length_take, List.length_rotate, List.length_set, h.cells] at hcount
          omega
        · exact absurd hflag (by decide)
        · exact hrc rfl

theorem sound_push (h : v.Ring) (entry : Option α) (flag : Int32) :
    (VecOp.push entry flag).Sound v := by
  by_cases hhead : flag = nftpHead
  · rw [hhead]
    exact sound_push_head h entry
  have hfits : (VecOp.push entry flag).Fits v := fun hflag => absurd hflag hhead
  by_cases htail : flag = nftpTail
  · subst htail
    rcases Nat.lt_or_ge v.len v.cap with hlen | hlen
    · obtain ⟨v', hv', hring, hcontents⟩ := nftpVecPush_tail_of_lt h hlen entry
      exact VecOp.sound_of_right hfits ⟨_, _, hv', Or.inr (Or.inl ⟨rfl, rfl, hcontents⟩)⟩
        (by rw [vecStep, hv']; rfl) hring
    · have hv := nftpVecPush_tail_of_le hlen entry
      exact VecOp.sound_of_right hfits ⟨_, _, hv, Or.inr (Or.inr ⟨by decide, rfl⟩)⟩
        (by rw [vecStep, hv]; rfl) h
  · have hv : nftpVecPush v entry flag = some (.flag, v) := by
      rw [nftpVecPush, if_neg hhead, if_neg htail]
    exact VecOp.sound_of_right hfits ⟨_, _, hv, Or.inr (Or.inr ⟨by decide, rfl⟩)⟩
      (by rw [vecStep, hv]; rfl) h

theorem sound_pop (h : v.Ring) (flag : Int32) : (VecOp.pop flag : VecOp α).Sound v := by
  have hlow := h.low
  by_cases hlen : v.len = 0
  · have hv := nftpVecPop_of_empty hlen flag
    have hnil : v.contents = [] :=
      List.eq_nil_of_length_eq_zero (h.length_contents.trans hlen)
    refine VecOp.sound_of_right ?_
      ⟨_, _, _, hv, Or.inr (Or.inr ⟨by decide, rfl, Or.inl hnil⟩)⟩ (by rw [vecStep, hv]; rfl) h
    intro _
    omega
  by_cases hhead : flag = nftpHead
  · subst hhead
    obtain ⟨x, v', hv', hring, hcontents⟩ := nftpVecPop_head h hlen
    refine VecOp.sound_of_right ?_ ⟨_, _, _, hv', Or.inl ⟨rfl, rfl, x, rfl, hcontents⟩⟩
      (by rw [vecStep, hv']; rfl) hring
    intro hflag
    exact absurd hflag (by decide)
  by_cases htail : flag = nftpTail
  · subst htail
    rcases Nat.lt_or_ge v.cap (v.low + v.len) with hwrap | hfit
    · have hv := nftpVecPop_tail_none h hwrap
      have hfits : ¬ (VecOp.pop nftpTail : VecOp α).Fits v :=
        fun hfits => absurd (hfits rfl) (Nat.not_le_of_lt hwrap)
      exact VecOp.sound_of_none hfits (by rw [vecStep, hv]; rfl)
    · obtain ⟨x, v', hv', hring, hcontents⟩ := nftpVecPop_tail h hlen hfit
      exact VecOp.sound_of_right (fun _ => hfit)
        ⟨_, _, _, hv', Or.inr (Or.inl ⟨rfl, rfl, x, rfl, hcontents⟩)⟩
        (by rw [vecStep, hv']; rfl) hring
  · have hv : nftpVecPop v flag = some (.flag, none, v) := by
      rw [nftpVecPop, if_neg hlen, if_neg hhead, if_neg htail]
    exact VecOp.sound_of_right (fun hflag => absurd hflag htail)
      ⟨_, _, _, hv, Or.inr (Or.inr ⟨by decide, rfl, Or.inr ⟨hhead, htail⟩⟩)⟩
      (by rw [vecStep, hv]; rfl) h

theorem sound_insert (h : v.Ring) (entry : Option α) (pos : Int32) :
    (VecOp.insert entry pos).Sound v := by
  have hlen := h.length_contents
  rcases Nat.lt_or_ge v.cap (v.low + v.len + 1) with hfull | hroom
  · have hv := nftpVecInsert_of_full hfull entry pos
    exact VecOp.sound_of_right trivial ⟨_, _, hv, Or.inr (Or.inr ⟨by decide, rfl⟩)⟩
      (by rw [vecStep, hv]; rfl) h
  by_cases hpos : 0 ≤ pos.toInt ∧ pos.toInt ≤ v.contents.length
  · obtain ⟨v', hv', hring, hcontents⟩ :=
      nftpVecInsert_at h hroom entry hpos.1 (by rw [← hlen]; exact hpos.2)
    exact VecOp.sound_of_right trivial ⟨_, _, hv', Or.inl ⟨rfl, hpos, hcontents⟩⟩
      (by rw [vecStep, hv']; rfl) hring
  · have hbehind := nftpVecInsert_behind h hroom entry pos (by omega)
    obtain ⟨v', hv', hring, hcontents⟩ := nftpVecPush_tail_of_lt h (by omega) entry
    rw [← hbehind] at hv'
    exact VecOp.sound_of_right trivial ⟨_, _, hv', Or.inr (Or.inl ⟨rfl, hpos, hcontents⟩)⟩
      (by rw [vecStep, hv']; rfl) hring

theorem sound_delete (h : v.Ring) (pos : Int32) : (VecOp.delete pos : VecOp α).Sound v := by
  have hlen := h.length_contents
  by_cases hrefused : pos.toInt < 0 ∨ v.len ≠ 0 ∧ v.len ≤ pos.toInt
  · have hv := nftpVecDelete_refused h hrefused
    have hout : ¬ InRange pos v.contents.length := by
      rw [hlen, InRange]
      omega
    refine VecOp.sound_of_right ?_ ⟨_, _, _, hv, Or.inr ⟨by decide, hout, rfl⟩⟩
      (by rw [vecStep, hv]; rfl) h
    exact hrefused.imp_right (fun hpos => ⟨hpos.1, Or.inl hpos.2⟩)
  have hpos : 0 ≤ pos.toInt := by omega
  by_cases hzero : v.len = 0
  · -- From an empty vector an entry that is not there is deleted.
    have hv := nftpVecDelete_empty hzero hpos
    apply VecOp.sound_of_wrong
    · rintro (hneg | ⟨hne, -⟩)
      · omega
      · exact hne hzero
    · rintro ⟨rc, out, v', hv', ⟨-, hin, -⟩ | ⟨hrc, -⟩⟩
      · rw [hlen, hzero] at hin
        exact absurd hin.2 (by push_cast; omega)
      · rw [hv] at hv'
        obtain ⟨x, -, hx⟩ := Option.map_eq_some_iff.mp hv'
        exact hrc (Prod.mk.inj hx).1.symm
  have hlt : pos.toInt < v.len := by omega
  rcases Nat.lt_or_ge v.cap (v.low + v.len) with hwrap | hfit
  · have hv := nftpVecDelete_none h hpos hlt hwrap
    have hfits : ¬ (VecOp.delete pos : VecOp α).Fits v := by
      rintro (hneg | ⟨-, hge | hfit⟩) <;> omega
    exact VecOp.sound_of_none hfits (by rw [vecStep, hv]; rfl)
  · obtain ⟨x, v', hv', hring, hx, hcontents⟩ := nftpVecDelete_at h hpos hlt hfit
    have hin : InRange pos v.contents.length := ⟨hpos, by rwa [hlen]⟩
    exact VecOp.sound_of_right (Or.inr ⟨hzero, Or.inr hfit⟩)
      ⟨_, _, _, hv', Or.inl ⟨rfl, hin, ⟨x, rfl, hx⟩, hcontents⟩⟩ (by rw [vecStep, hv']; rfl) hring

theorem sound_get (h : v.Ring) (idx : Int32) : (VecOp.get idx : VecOp α).Sound v := by
  have hlen := h.length_contents
  by_cases hin : InRange idx v.len
  · obtain ⟨hpos, hlt⟩ := hin
    have hv := nftpVecGet_eq (v := v) hpos hlt
    by_cases hcell : v.low + idx.toInt < v.cap
    · rw [getElem?_contents_of_lt h hpos hlt hcell] at hv
      obtain ⟨x, hx⟩ : ∃ x, v.contents[idx.toInt.toNat]? = some x :=
        ⟨_, List.getElem?_eq_getElem (by omega)⟩
      rw [hx, Option.map_some] at hv
      have hin : InRange idx v.contents.length := ⟨hpos, by rwa [hlen]⟩
      exact VecOp.sound_of_right (fun _ => hcell) ⟨_, _, hv, Or.inl ⟨rfl, hin, x, rfl, hx⟩⟩
        (by rw [vecStep, hv]; rfl) h
    · rw [List.getElem?_eq_none (by rw [h.cells]; omega)] at hv
      have hfits : ¬ (VecOp.get idx : VecOp α).Fits v := fun hfits => hcell (hfits ⟨hpos, hlt⟩)
      exact VecOp.sound_of_none hfits (by rw [vecStep, hv]; rfl)
  · have hv := nftpVecGet_refused h hin
    exact VecOp.sound_of_right (fun hin' => absurd hin' hin)
      ⟨_, _, hv, Or.inr ⟨by decide, by rwa [hlen]⟩⟩ (by rw [vecStep, hv]; rfl) h

theorem idxOf?_take_of_mem {β : Type*} [BEq β] [LawfulBEq β] {l : List β} {n : ℕ} {x : β}
    (h : x ∈ l.take n) : (l.take n).idxOf? x = l.idxOf? x := by
  obtain ⟨k, hk⟩ := Option.isSome_iff_exists.mp (List.isSome_idxOf?.mpr h)
  conv_rhs => rw [← List.take_append_drop n l]
  rw [List.idxOf?, List.findIdx?_append]
  rw [List.idxOf?] at hk
  rw [hk]
  rfl

theorem sound_getidx (h : v.Ring) (entry : Option α) : (VecOp.getidx entry).Sound v := by
  have hlow := h.low
  have hv := nftpVecGetidx_eq h entry
  by_cases hmem : entry ∈ v.contents.take (v.cap - v.low)
  · obtain ⟨k, hk⟩ : ∃ k, (v.contents.take (v.cap - v.low)).idxOf? entry = some k :=
      Option.isSome_iff_exists.mp (List.isSome_idxOf?.mpr hmem)
    rw [hk] at hv
    rw [idxOf?_take_of_mem hmem] at hk
    exact VecOp.sound_of_right (Or.inr hmem) ⟨_, _, hv, Or.inl ⟨rfl, k, rfl, hk⟩⟩
      (by rw [vecStep, hv]; rfl) h
  · rw [List.idxOf?_eq_none_iff.mpr hmem, Option.elim_none] at hv
    by_cases hfit : v.low + v.len ≤ v.cap
    · rw [if_pos hfit] at hv
      rw [List.take_of_length_le (by rw [h.length_contents]; omega)] at hmem
      exact VecOp.sound_of_right (Or.inl hfit) ⟨_, _, hv, Or.inr ⟨by decide, hmem⟩⟩
        (by rw [vecStep, hv]; rfl) h
    · rw [if_neg hfit] at hv
      have hfits : ¬ (VecOp.getidx entry).Fits v := fun hfits => hfits.elim hfit hmem
      exact VecOp.sound_of_none hfits (by rw [vecStep, hv]; rfl)

theorem VecOp.sound (h : v.Ring) (op : VecOp α) : op.Sound v := by
  cases op with
  | push entry flag => exact sound_push h entry flag
  | append entry => exact sound_append h entry
  | pop flag => exact sound_pop h flag
  | insert entry pos => exact sound_insert h entry pos
  | delete pos => exact sound_delete h pos
  | get idx => exact sound_get h idx
  | getidx entry => exact sound_getidx h entry

end Steps

section Pool

variable {ι α : Type*} [DecidableEq ι] [DecidableEq α] {p p' : ι → NftpVec α}

theorem cat_right_iff (h : ∀ i, (p i).Ring) (d s : ι) :
    (PoolOp.cat d s : PoolOp ι α).Right p ↔ (PoolOp.cat d s : PoolOp ι α).Fits p := by
  rcases Nat.lt_or_ge (p d).cap ((p d).low + (p d).len + (p s).len) with hfull | hroom
  · exact iff_of_true (Or.inr ⟨_, _, nftpVecCat_of_full hfull, Or.inr ⟨by decide, rfl⟩⟩)
      (Or.inr (Or.inl hfull))
  by_cases hsame : d = s
  · exact iff_of_true (Or.inl ⟨hsame, hroom⟩) (Or.inl hsame)
  rcases Nat.lt_or_ge (p s).cap ((p s).low + (p s).len) with hwrap | hfit
  · have hnone := nftpVecCat_none (v := p d) (h s) hroom hwrap
    apply iff_of_false
    · rintro (⟨heq, -⟩ | ⟨rc, v', hv', -⟩)
      · exact hsame heq
      · rw [hnone] at hv'
        cases hv'
    · rintro (heq | hfull | hfit)
      · exact hsame heq
      · omega
      · omega
  · obtain ⟨v', hv', -, hcontents⟩ := nftpVecCat_of_room (h d) (h s) hroom hfit
    exact iff_of_true (Or.inr ⟨_, _, hv', Or.inl ⟨rfl, hcontents⟩⟩) (Or.inr (Or.inr hfit))

omit [DecidableEq α] in
theorem ring_update (h : ∀ i, (p i).Ring) (i : ι) {v : NftpVec α} (hv : v.Ring) :
    ∀ j, (Function.update p i v j).Ring := by
  intro j
  by_cases hj : j = i
  · subst hj
    rwa [Function.update_self]
  · rw [Function.update_of_ne hj]
    exact h j

theorem ring_cat (h : ∀ i, (p i).Ring) {d s : ι}
    (hstep : poolStep p (.cat d s) = some p') : ∀ i, (p' i).Ring := by
  rw [poolStep] at hstep
  split_ifs at hstep with hblocks
  obtain ⟨⟨rc, v⟩, hv, rfl⟩ := Option.map_eq_some_iff.mp hstep
  apply ring_update h d
  dsimp only
  rcases Nat.lt_or_ge (p d).cap ((p d).low + (p d).len + (p s).len) with hfull | hroom
  · rw [nftpVecCat_of_full hfull] at hv
    obtain ⟨-, rfl⟩ := Prod.mk.inj (Option.some.inj hv)
    exact h d
  rcases Nat.lt_or_ge (p s).cap ((p s).low + (p s).len) with hwrap | hfit
  · rw [nftpVecCat_none (h s) hroom hwrap] at hv
    cases hv
  · obtain ⟨v', hv', hring, -⟩ := nftpVecCat_of_room (h d) (h s) hroom hfit
    obtain ⟨-, rfl⟩ := Prod.mk.inj (Option.some.inj (hv'.symm.trans hv))
    exact hring

theorem PoolOp.right_iff (h : ∀ i, (p i).Ring) (op : PoolOp ι α) : op.Right p ↔ op.Fits p := by
  cases op with
  | on i op => exact (VecOp.sound (h i) op).right_iff
  | cat d s => exact cat_right_iff h d s

theorem PoolOp.ring {op : PoolOp ι α} (h : ∀ i, (p i).Ring) (hfits : op.Fits p)
    (hstep : poolStep p op = some p') : ∀ i, (p' i).Ring := by
  cases op with
  | on i op =>
    obtain ⟨v, hv, rfl⟩ := Option.map_eq_some_iff.mp hstep
    exact ring_update h i ((VecOp.sound (h i) op).ring hfits v hv)
  | cat d s => exact ring_cat h hstep

/-- Every operation of a run is right exactly if every operation fits the state before it. -/
theorem nftpVec_right_iff (memory : ι → Fin nftpSize → Option α) (ops : List (PoolOp ι α)) :
    AllSteps poolStep (fun p op => op.Right p) (fun i => nftpVecAlloc (memory i)) ops ↔
      AllSteps poolStep (fun p op => op.Fits p) (fun i => nftpVecAlloc (memory i)) ops :=
  allSteps_congr (E := fun _ => True) (I := fun p => ∀ i, (p i).Ring)
    (fun _ op _ h => PoolOp.right_iff h op)
    (fun _ _ _ _ hfits h hstep => PoolOp.ring h hfits hstep) (fun _ _ => trivial)
    (fun i => nftpVecAlloc_ring (memory i))

end Pool

/-- An entry can be deleted from a new vector, and the 97th entry that is appended to one cannot be
read: it stands in the first cell, and the cell behind the last one is read. -/
theorem nftpVec_positions_fail :
    let v : NftpVec ℕ := nftpVecAlloc (fun _ => none)
    ((nftpVecDelete v 0).map (fun r => (r.1, r.2.2.len)) = some (.ok, 18446744073709551615) ∧
        ¬ (VecOp.delete 0).Right v) ∧
      ∃ v', (List.replicate 97 (VecOp.append (some 1))).foldlM vecStep v = some v' ∧
        v'.contents.length = 97 ∧ nftpVecGet v' 96 = none ∧ ¬ (VecOp.get 96).Right v' := by
  intro v
  constructor
  · have hok : (nftpVecDelete v 0).map (fun r => (r.1, r.2.2.len)) =
        some (.ok, 18446744073709551615) := by decide +kernel
    refine ⟨hok, ?_⟩
    rintro ⟨rc, out, v', hdelete, h⟩
    rw [hdelete] at hok
    obtain ⟨hrc, -⟩ := Prod.mk.inj (Option.some.inj hok)
    rcases h with ⟨-, hrange, -⟩ | ⟨hne, -⟩
    · exact absurd hrange.2 (by decide)
    · exact hne hrc
  · have hget : ((List.replicate 97 (VecOp.append (some 1))).foldlM vecStep v).map
        (fun v' => (v'.contents.length, nftpVecGet v' 96)) = some (97, none) := by
      decide +kernel
    obtain ⟨v', hrun, hparts⟩ := Option.map_eq_some_iff.mp hget
    obtain ⟨hlen, hnone⟩ := Prod.mk.inj hparts
    refine ⟨v', hrun, hlen, hnone, ?_⟩
    rintro ⟨rc, out, hout, -⟩
    cases hnone.symm.trans hout

end NanoMQ
