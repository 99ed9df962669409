import Mathlib.Algebra.Order.Group.Multiset
import Mathlib.Tactic.Abel

/-! # Resources that are acquired and released

An inventory lists the resources that are live and those that were released without being
live. A program that holds on to what it has acquired accounts for every live resource:
it is either held, and will be released once, or lost. -/

namespace WebSocketHft.Ownership

variable {κ : Type*}

/-- A resource: what it is, and the number of its acquisition. -/
structure Handle (κ : Type*) where
  kind : κ
  id : ℕ
  deriving DecidableEq, Repr

structure Inventory (κ : Type*) where
  next : ℕ
  live : List (Handle κ)
  misused : List (Handle κ)
  deriving DecidableEq, Repr

namespace Inventory

def empty : Inventory κ := ⟨0, [], []⟩

/-- The resource, unless it is refused. -/
def acquire (l : Inventory κ) (granted : Bool) (kind : κ) : Option (Handle κ) × Inventory κ :=
  if granted then
    (some ⟨kind, l.next⟩, { l with next := l.next + 1, live := ⟨kind, l.next⟩ :: l.live })
  else (none, l)

def release [DecidableEq κ] (l : Inventory κ) (h : Handle κ) : Inventory κ :=
  if h ∈ l.live then { l with live := l.live.erase h } else { l with misused := h :: l.misused }

@[simp] theorem next_release [DecidableEq κ] (l : Inventory κ) (h : Handle κ) :
    (l.release h).next = l.next := by
  unfold release
  split_ifs <;> rfl

/-- Nothing happens to a null pointer. -/
def releaseIfAny [DecidableEq κ] (l : Inventory κ) : Option (Handle κ) → Inventory κ
  | none => l
  | some h => l.release h

end Inventory

/-- What a field of an object holds. -/
def content : Option (Handle κ) → Multiset (Handle κ)
  | none => 0
  | some h => {h}

@[simp] theorem content_none : content (none : Option (Handle κ)) = 0 := rfl

@[simp] theorem content_some (h : Handle κ) : content (some h) = {h} := rfl

@[simp] theorem content_eq_zero {o : Option (Handle κ)} : content o = 0 ↔ o = none := by
  cases o with
  | none => simp
  | some h => simp

/-- Every live resource is held or lost, and none was released without being live. -/
structure Accounted (l : Inventory κ) (held lost : Multiset (Handle κ)) : Prop where
  live_eq : (l.live : Multiset (Handle κ)) = held + lost
  fresh : ∀ h ∈ l.live, h.id < l.next
  nodup : l.live.Nodup
  unmisused : l.misused = []

namespace Accounted

variable {l : Inventory κ} {held lost rest : Multiset (Handle κ)}

theorem empty : Accounted (Inventory.empty : Inventory κ) 0 0 :=
  ⟨rfl, fun _ h => absurd h List.not_mem_nil, List.nodup_nil, rfl⟩

theorem congr (h : Accounted l held lost) {held' lost' : Multiset (Handle κ)}
    (hsum : held + lost = held' + lost') : Accounted l held' lost' :=
  ⟨h.live_eq.trans hsum, h.fresh, h.nodup, h.unmisused⟩

/-- An acquired resource is held at first. -/
theorem acquire (h : Accounted l held lost) (granted : Bool) (kind : κ) :
    Accounted (l.acquire granted kind).2 (content (l.acquire granted kind).1 + held) lost := by
  cases granted with
  | false =>
      have hnone : l.acquire false kind = (none, l) := rfl
      rw [hnone, content, zero_add]
      exact h
  | true =>
      have hsome : l.acquire true kind =
          (some ⟨kind, l.next⟩,
            { l with next := l.next + 1, live := ⟨kind, l.next⟩ :: l.live }) := rfl
      rw [hsome]
      refine ⟨?_, ?_, ?_, h.unmisused⟩
      · rw [content, add_assoc, ← h.live_eq, Multiset.singleton_add]
        rfl
      · intro g hg
        rcases List.mem_cons.mp hg with rfl | hg
        · exact Nat.lt_succ_self _
        · exact (h.fresh g hg).trans (Nat.lt_succ_self _)
      · refine List.nodup_cons.mpr ⟨fun hmem => ?_, h.nodup⟩
        exact absurd (h.fresh _ hmem) (Nat.lt_irrefl _)

/-- A held resource can be released. -/
theorem release [DecidableEq κ] {g : Handle κ} (h : Accounted l ({g} + rest) lost) :
    Accounted (l.release g) rest lost := by
  have hmem : g ∈ l.live := by
    rw [← Multiset.mem_coe, h.live_eq]
    simp
  have herase : l.release g = { l with live := l.live.erase g } := if_pos hmem
  rw [herase]
  refine ⟨?_, fun f hf => h.fresh f (List.mem_of_mem_erase hf), h.nodup.erase g, h.unmisused⟩
  rw [← Multiset.coe_erase, h.live_eq, add_assoc, Multiset.singleton_add,
    Multiset.erase_cons_head]

theorem releaseIfAny [DecidableEq κ] {o : Option (Handle κ)}
    (h : Accounted l (content o + rest) lost) :
    Accounted (l.releaseIfAny o) rest lost := by
  cases o with
  | none => exact h.congr (by simp [content])
  | some g => exact h.release

end Accounted

end WebSocketHft.Ownership
