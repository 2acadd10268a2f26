import Mathlib.Data.List.AList

/-!
# What objects hold

Objects under keys, each of which holds some items: `held` are the items of all objects.
An operation that puts an object away, takes one out, or lets two of them exchange what
they hold, leaves every item where it was or changes hands with it; the lemmas say so up
to permutation, which counts an item as often as it is held.
-/
namespace ObjectStore
open List

variable {κ σ ι : Type} [DecidableEq κ] (items : σ → List ι)

/-- The items that the objects of a store hold, over all its entries. -/
def held (objects : AList fun _ : κ => σ) : List ι := objects.entries.flatMap fun x => items x.2

variable {items} {objects : AList fun _ : κ => σ} {k k' : κ} {a b : σ}

theorem mem_of_lookup (hk : objects.lookup k = some a) : k ∈ objects :=
  AList.lookup_isSome.mp (by rw [hk]; rfl)

theorem exists_lookup (hk : k ∈ objects) : ∃ a, objects.lookup k = some a :=
  Option.isSome_iff_exists.mp (AList.lookup_isSome.mpr hk)

omit [DecidableEq κ] in
@[simp] theorem held_empty : held items (∅ : AList fun _ : κ => σ) = [] := rfl

theorem mem_held {i : ι} :
    i ∈ held items objects ↔ ∃ k a, objects.lookup k = some a ∧ i ∈ items a := by
  simp only [held, List.mem_flatMap, Sigma.exists]
  constructor
  · rintro ⟨k, a, hmem, hi⟩
    exact ⟨k, a, AList.mem_lookup_iff.mpr hmem, hi⟩
  · rintro ⟨k, a, hk, hi⟩
    exact ⟨k, a, AList.mem_lookup_iff.mp hk, hi⟩

/-- An object takes the place of the one under its key. -/
theorem held_insert_eq : held items (objects.insert k a) =
    items a ++ held items (objects.erase k) := rfl

/-- **Putting away** a new object adds what it holds. -/
theorem held_insert (hk : k ∉ objects) :
    held items (objects.insert k a) = items a ++ held items objects := by
  rw [held, AList.entries_insert_of_notMem hk, List.flatMap_cons]
  rfl

variable (items)

/-- **Taking out** an object takes away what it holds. -/
theorem held_erase (hk : objects.lookup k = some a) :
    held items objects ~ items a ++ held items (objects.erase k) := by
  have hkeys : k ∈ objects.entries.keys := mem_of_lookup hk
  obtain ⟨b, l₁, l₂, hnot, hentries, herase⟩ := List.exists_of_kerase hkeys
  have hab : a = b := by
    have hmem : (⟨k, b⟩ : Σ _ : κ, σ) ∈ objects.entries := by simp [hentries]
    have hb : objects.lookup k = some b := AList.mem_lookup_iff.mpr hmem
    exact Option.some.inj (hk.symm.trans hb)
  subst hab
  have hrest : held items (objects.erase k) = l₁.flatMap (fun x => items x.2) ++
      l₂.flatMap fun x => items x.2 := by
    show (List.kerase k objects.entries).flatMap _ = _
    rw [herase, List.flatMap_append]
  rw [hrest, held, hentries, List.flatMap_append, List.flatMap_cons, ← List.append_assoc,
    ← List.append_assoc]
  exact List.perm_append_comm.append_right _

/-- **Replacing** what an object is replaces what it holds. -/
theorem held_replace (hk : objects.lookup k = some a) :
    items a ++ held items (objects.insert k b) ~ items b ++ held items objects := by
  rw [held_insert_eq]
  calc items a ++ (items b ++ held items (objects.erase k))
      ~ items b ++ (items a ++ held items (objects.erase k)) := by
        rw [← List.append_assoc, ← List.append_assoc]
        exact List.perm_append_comm.append_right _
    _ ~ items b ++ held items objects := (held_erase items hk).symm.append_left _

/-- **Exchanging** what two objects are leaves the same items held. -/
theorem held_swap (hk : objects.lookup k = some a) (hk' : objects.lookup k' = some b)
    (hne : k ≠ k') :
    held items ((objects.insert k b).insert k' a) ~ held items objects := by
  have hother : (objects.insert k b).lookup k' = some b :=
    (AList.lookup_insert_ne hne.symm).trans hk'
  have htwice := (held_replace items (b := a) hother).trans (held_replace items hk)
  exact (List.perm_append_left_iff _).mp htwice

/-- **Passing on** what an object is to a new one. -/
theorem held_move (hk : objects.lookup k = some a) (hk' : k' ∉ objects) :
    held items ((objects.insert k b).insert k' a) ~ items b ++ held items objects := by
  have hne : k' ≠ k := by
    rintro rfl
    exact hk' (mem_of_lookup hk)
  have hnew : k' ∉ objects.insert k b := fun hmem =>
    ((AList.mem_insert _).mp hmem).elim hne hk'
  rw [held_insert hnew]
  exact held_replace items hk

variable {items}

/-- **An item that is held once has one holder.** -/
theorem holder_unique (hnodup : (held items objects).Nodup) {i : ι}
    (hk : objects.lookup k = some a) (hi : i ∈ items a)
    (hk' : objects.lookup k' = some b) (hi' : i ∈ items b) : k = k' := by
  by_contra hne
  have hperm := held_erase items hk
  have hrest : i ∈ held items (objects.erase k) :=
    mem_held.mpr ⟨k', b, (AList.lookup_erase_ne (fun h => hne h.symm)).trans hk', hi'⟩
  have hapart := (List.nodup_append.mp (hperm.nodup_iff.mp hnodup)).2.2
  exact hapart i hi i hrest rfl

end ObjectStore
