import NanoMQ.Conf
import NanoMQ.OwnedHeap

/-!
# The topic string a bridge works on

Before a bridge passes a message on, in either direction, an entry of its configuration may replace
the topic and put text before and behind it. Each of these makes a new string. The pointer
`topic->body` starts at the string of the packet, which must stay; the mark in `rv` says that it has
left it, so that the string it points to is freed when the next one is made of it.
-/

namespace NanoMQ

open ByteBuffer

/-- The local `topic` with all strings; `mark` stands for `rv == NNG_STAT_STRING`. -/
structure TopicRef where
  heap : OwnedHeap Bytes
  body : ℕ
  len : ℕ
  mark : Bool

namespace TopicRef

def remap (new : Option Bytes) (r : TopicRef) : TopicRef :=
  match new with
  | none => r
  | some t => ⟨r.heap.alloc t, r.heap.size, t.length, true⟩

/-- The pointer moves to a string made of the one it points to, which is freed if it was marked. -/
def extend (f : Bytes → Bytes) (r : TopicRef) : Option TopicRef :=
  (r.heap.read r.body).bind (fun t =>
    let h := r.heap.alloc (f t)
    (if r.mark then h.free r.body else some h).map (fun h' =>
      ⟨h', r.heap.size, (f t).length, true⟩))

def enclose (pre suffix : Option Bytes) (r : TopicRef) : Option TopicRef :=
  (pre.elim (some r) (fun p => r.extend (fun t => p ++ t))).bind (fun r =>
    suffix.elim (some r) (fun x => r.extend (fun t => t ++ x)))

/-- The pointer is at a string with this text: the one it started at, without a mark, or with a mark
at one that came up since and is the only one of these left. -/
structure Owns (h₀ : OwnedHeap Bytes) (p₀ : ℕ) (r : TopicRef) (t : Bytes) : Prop where
  read : r.heap.read r.body = some t
  len : r.len = t.length
  moved : h₀.Moved r.heap none (if r.mark then some r.body else none)
  unmarked : r.mark = false → r.body = p₀

section Owns

variable {h₀ : OwnedHeap Bytes} {p₀ : ℕ} {r : TopicRef} {t : Bytes}

theorem owns_start (h : h₀.read p₀ = some t) : Owns h₀ p₀ ⟨h₀, p₀, t.length, false⟩ t :=
  ⟨h, rfl, .refl h₀ none, fun _ => rfl⟩

theorem Owns.remap (h : Owns h₀ p₀ r t) (hmark : r.mark = false) (new : Option Bytes) :
    Owns h₀ p₀ (r.remap new) (new.getD t) ∧ (r.remap new).mark = new.isSome := by
  cases new with
  | none => exact ⟨h, hmark⟩
  | some t' =>
    have hmoved := h.moved
    rw [hmark] at hmoved
    exact ⟨⟨r.heap.read_alloc_self t', rfl, hmoved.trans (.adopt r.heap t'), nofun⟩, rfl⟩

theorem Owns.extend (h : Owns h₀ p₀ r t) (f : Bytes → Bytes) :
    ∃ r', r.extend f = some r' ∧ Owns h₀ p₀ r' (f t) ∧ r'.mark = true := by
  have hmoved := h.moved
  unfold TopicRef.extend
  rw [h.read, Option.bind_some]
  cases hmark : r.mark with
  | false =>
    rw [hmark] at hmoved
    exact ⟨_, rfl, ⟨r.heap.read_alloc_self (f t), rfl, hmoved.trans (.adopt r.heap (f t)), nofun⟩,
      rfl⟩
  | true =>
    rw [hmark] at hmoved
    obtain ⟨h', hfree, hread, hreplace⟩ := OwnedHeap.exists_replace h.read (f t)
    refine ⟨⟨h', r.heap.size, (f t).length, true⟩, ?_,
      ⟨hread, rfl, hmoved.trans hreplace, nofun⟩, rfl⟩
    dsimp only
    rw [if_pos rfl, hfree]
    rfl

theorem Owns.enclose (h : Owns h₀ p₀ r t) (pre suffix : Option Bytes) :
    ∃ r', r.enclose pre suffix = some r' ∧
      Owns h₀ p₀ r' (pre.getD [] ++ t ++ suffix.getD []) ∧
      r'.mark = (r.mark || pre.isSome || suffix.isSome) := by
  have hpre : ∃ r₁, pre.elim (some r) (fun p => r.extend (fun t => p ++ t)) = some r₁ ∧
      Owns h₀ p₀ r₁ (pre.getD [] ++ t) ∧ r₁.mark = (r.mark || pre.isSome) := by
    cases pre with
    | none => exact ⟨r, rfl, h, (Bool.or_false _).symm⟩
    | some p =>
      obtain ⟨r₁, hr₁, howns, hmark⟩ := h.extend (fun t => p ++ t)
      exact ⟨r₁, hr₁, howns, hmark.trans (Bool.or_true _).symm⟩
  obtain ⟨r₁, hr₁, howns₁, hmark₁⟩ := hpre
  unfold TopicRef.enclose
  rw [hr₁, Option.bind_some, ← hmark₁]
  cases suffix with
  | none =>
    rw [Option.getD_none, List.append_nil]
    exact ⟨r₁, rfl, howns₁, (Bool.or_false _).symm⟩
  | some x =>
    obtain ⟨r₂, hr₂, howns, hmark⟩ := howns₁.extend (fun t => t ++ x)
    exact ⟨r₂, hr₂, howns, hmark.trans (Bool.or_true _).symm⟩

end Owns

end TopicRef

end NanoMQ
