import NanoMQ.OwnedHeap

/-!
# Vectors behind pointers

A vector is an object of a heap, and a pointer to one is its number or `NULL`, which stands for an
empty vector. Appending an element may move the vector: then there is a new object, the old one is
freed, and only the pointer that was passed follows. Whether it moves is up to the allocator.
-/

namespace CVector

variable {α : Type*}

/-- The elements behind a pointer, unless the vector was freed. -/
def elems (h : OwnedHeap (List α)) : Option ℕ → Option (List α)
  | none => some []
  | some p => h.read p

def pushBack (moves : OwnedHeap (List α) → ℕ → Bool) (h : OwnedHeap (List α)) (v : Option ℕ)
    (x : α) : Option (OwnedHeap (List α) × ℕ) :=
  match v with
  | none => some (h.alloc [x], h.size)
  | some p =>
    (h.read p).bind (fun xs =>
      if moves h p then ((h.alloc (xs ++ [x])).free p).map (fun h' => (h', h.size))
      else (h.write p (xs ++ [x])).map (fun h' => (h', p)))

/-- `cvector_grow`: room for more elements, for which the vector may move. -/
def grow (moves : OwnedHeap (List α) → ℕ → Bool) (h : OwnedHeap (List α)) (v : Option ℕ) :
    Option (OwnedHeap (List α) × ℕ) :=
  match v with
  | none => some (h.alloc [], h.size)
  | some p =>
    (h.read p).bind (fun xs =>
      if moves h p then ((h.alloc xs).free p).map (fun h' => (h', h.size)) else some (h, p))

def pushAll (moves : OwnedHeap (List α) → ℕ → Bool) :
    List α → OwnedHeap (List α) → ℕ → Option (OwnedHeap (List α) × ℕ)
  | [], h, p => some (h, p)
  | x :: xs, h, p => (pushBack moves h (some p) x).bind (fun r => pushAll moves xs r.1 r.2)

variable {h h' : OwnedHeap (List α)} {v : Option ℕ} {xs : List α}

theorem elems_of_free {p : ℕ} (hfree : h.free p = some h') (hv : v ≠ some p) :
    elems h' v = elems h v := by
  cases v with
  | none => rfl
  | some q => exact (OwnedHeap.of_free hfree).2.2 q (fun heq => hv (congrArg some heq))

theorem elems_alloc (hv : elems h v = some xs) (ys : List α) :
    elems (h.alloc ys) v = some xs ∧ v ≠ some h.size := by
  cases v with
  | none => exact ⟨hv, nofun⟩
  | some p =>
    have hlt := OwnedHeap.lt_size_of_read hv
    refine ⟨(OwnedHeap.read_alloc_of_lt ys hlt).trans hv, fun heq => ?_⟩
    rw [Option.some.inj heq] at hlt
    exact Nat.lt_irrefl _ hlt

theorem exists_pushBack (moves : OwnedHeap (List α) → ℕ → Bool) (hv : elems h v = some xs) (x : α) :
    ∃ h' p, pushBack moves h v x = some (h', p) ∧ h'.read p = some (xs ++ [x]) ∧
      h.Moved h' v (some p) := by
  cases v with
  | none =>
    obtain rfl : [] = xs := Option.some.inj hv
    exact ⟨h.alloc [x], h.size, rfl, h.read_alloc_self [x], OwnedHeap.Moved.adopt h [x]⟩
  | some p =>
    have hp : h.read p = some xs := hv
    rw [pushBack, hp, Option.bind_some]
    split_ifs
    · obtain ⟨h', hfree, hread, hmoved⟩ := OwnedHeap.exists_replace hp (xs ++ [x])
      exact ⟨h', h.size, by rw [hfree]; rfl, hread, hmoved⟩
    · obtain ⟨h', hwrite, hread, hmoved⟩ := OwnedHeap.exists_write hp (xs ++ [x])
      exact ⟨h', p, by rw [hwrite]; rfl, hread, hmoved⟩

theorem exists_grow (moves : OwnedHeap (List α) → ℕ → Bool) (hv : elems h v = some xs) :
    ∃ h' p, grow moves h v = some (h', p) ∧ h'.read p = some xs ∧ h.Moved h' v (some p) := by
  cases v with
  | none =>
    obtain rfl : [] = xs := Option.some.inj hv
    exact ⟨h.alloc [], h.size, rfl, h.read_alloc_self [], OwnedHeap.Moved.adopt h []⟩
  | some p =>
    have hp : h.read p = some xs := hv
    rw [grow, hp, Option.bind_some]
    split_ifs
    · obtain ⟨h', hfree, hread, hmoved⟩ := OwnedHeap.exists_replace hp xs
      exact ⟨h', h.size, by rw [hfree]; rfl, hread, hmoved⟩
    · exact ⟨h, p, rfl, hp, OwnedHeap.Moved.refl h (some p)⟩

theorem exists_pushAll (moves : OwnedHeap (List α) → ℕ → Bool) {p : ℕ} (hp : h.read p = some xs)
    (ys : List α) :
    ∃ h' q, pushAll moves ys h p = some (h', q) ∧ h'.read q = some (xs ++ ys) ∧
      h.Moved h' (some p) (some q) := by
  induction ys generalizing h p xs with
  | nil => exact ⟨h, p, rfl, by rw [hp, List.append_nil], OwnedHeap.Moved.refl h (some p)⟩
  | cons y ys ih =>
    obtain ⟨h₁, p₁, hpush, hread₁, hmoved₁⟩ := exists_pushBack (v := some p) moves hp y
    obtain ⟨h₂, p₂, hrest, hread₂, hmoved₂⟩ := ih hread₁
    refine ⟨h₂, p₂, ?_, ?_, hmoved₁.trans hmoved₂⟩
    · rw [pushAll, hpush]
      exact hrest
    · rw [hread₂, List.append_assoc, List.singleton_append]

end CVector
