import Mathlib.Data.List.Forall2
import Mathlib.Data.List.Infix

/-! # Messages in pieces

A message travels as a first piece and further pieces, the last of which is marked.
Between the pieces of a message there may be other things, but no piece of another
message. A receiver that takes every first piece for a message gets a front part of each
message, and all of it exactly if the further pieces are empty. -/

namespace WebSocketHft.Fragments

variable {α : Type*}

/-- What a piece is to the messages; `last` marks the end of a message. -/
inductive Fragment (α : Type*) where
  | first (last : Bool) (piece : List α)
  | further (last : Bool) (piece : List α)
  | other

/-- The messages, put together from their pieces; `message` is the open one. -/
def assemble : Option (List α) → List (Fragment α) → List (List α)
  | _, [] => []
  | message, .other :: fragments => assemble message fragments
  | _, .first true piece :: fragments => piece :: assemble none fragments
  | _, .first false piece :: fragments => assemble (some piece) fragments
  | none, .further _ _ :: fragments => assemble none fragments
  | some message, .further true piece :: fragments => (message ++ piece) :: assemble none fragments
  | some message, .further false piece :: fragments => assemble (some (message ++ piece)) fragments

/-- No message starts inside another one, none goes on that has not started, and none is
left open. -/
def Orderly : Bool → List (Fragment α) → Prop
  | isOpen, [] => isOpen = false
  | isOpen, .other :: fragments => Orderly isOpen fragments
  | isOpen, .first last _ :: fragments => isOpen = false ∧ Orderly (!last) fragments
  | isOpen, .further last _ :: fragments => isOpen = true ∧ Orderly (!last) fragments

/-- The pieces a receiver gets that looks at first pieces only. -/
def firsts : List (Fragment α) → List (List α)
  | [] => []
  | .first _ piece :: fragments => piece :: firsts fragments
  | _ :: fragments => firsts fragments

/-- Every further piece is empty. -/
def AllInFirst (fragments : List (Fragment α)) : Prop :=
  ∀ last piece, Fragment.further last piece ∈ fragments → piece = []

theorem allInFirst_cons {fragment : Fragment α} {fragments : List (Fragment α)} :
    AllInFirst (fragment :: fragments) ↔
      (∀ last piece, fragment = .further last piece → piece = []) ∧ AllInFirst fragments := by
  constructor
  · intro h
    exact ⟨fun last piece heq => h last piece (heq ▸ List.mem_cons_self),
      fun last piece hmem => h last piece (List.mem_cons_of_mem _ hmem)⟩
  · rintro ⟨hhead, htail⟩ last piece hmem
    rcases List.mem_cons.mp hmem with heq | hmem
    · exact hhead last piece heq.symm
    · exact htail last piece hmem

/-- A front part of a longer list is all of it exactly if the lengthening is nothing. -/
theorem prefix_eq_append_iff {xs ys zs : List α} (h : xs <+: ys) :
    xs = ys ++ zs ↔ xs = ys ∧ zs = [] := by
  constructor
  · intro heq
    have hlen := congrArg List.length heq
    have hle := h.length_le
    rw [List.length_append] at hlen
    exact ⟨h.eq_of_length (by omega), List.eq_nil_of_length_eq_zero (by omega)⟩
  · rintro ⟨rfl, rfl⟩
    rw [List.append_nil]

/-- The two cases of the induction: with no message open, and with one of which the receiver
has got `got`. -/
theorem firsts_spec (fragments : List (Fragment α)) :
    (Orderly false fragments →
      List.Forall₂ (· <+: ·) (firsts fragments) (assemble none fragments) ∧
        (firsts fragments = assemble none fragments ↔ AllInFirst fragments)) ∧
    ∀ got message : List α, got <+: message → Orderly true fragments →
      List.Forall₂ (· <+: ·) (got :: firsts fragments) (assemble (some message) fragments) ∧
        (got :: firsts fragments = assemble (some message) fragments ↔
          got = message ∧ AllInFirst fragments) := by
  induction fragments with
  | nil =>
      refine ⟨fun _ => ⟨.nil, ?_⟩, fun _ _ _ h => absurd h (by simp [Orderly])⟩
      simp [firsts, assemble, AllInFirst]
  | cons fragment fragments ih =>
      obtain ⟨hclosed, hopen⟩ := ih
      cases fragment with
      | other =>
          refine ⟨fun h => ?_, fun got message hgot h => ?_⟩
          · simpa [firsts, assemble, allInFirst_cons] using hclosed h
          · simpa [firsts, assemble, allInFirst_cons] using hopen got message hgot h
      | first last piece =>
          refine ⟨fun h => ?_, fun _ _ _ h => absurd h.1 Bool.false_ne_true.symm⟩
          cases last with
          | true =>
              obtain ⟨hfront, heq⟩ := hclosed h.2
              simp only [firsts, assemble, allInFirst_cons, List.cons.injEq, true_and, heq]
              exact ⟨.cons List.prefix_rfl hfront, by simp⟩
          | false =>
              obtain ⟨hfront, heq⟩ := hopen piece piece List.prefix_rfl h.2
              simp only [firsts, assemble, allInFirst_cons]
              exact ⟨hfront, heq.trans (by simp)⟩
      | further last piece =>
          refine ⟨fun h => absurd h.1 Bool.false_ne_true, fun got message hgot h => ?_⟩
          have hlonger : got <+: message ++ piece := hgot.trans (List.prefix_append _ _)
          cases last with
          | true =>
              obtain ⟨hfront, heq⟩ := hclosed h.2
              simp only [firsts, assemble, allInFirst_cons, List.cons.injEq, heq,
                prefix_eq_append_iff hgot]
              exact ⟨.cons hlonger hfront, by simp [and_assoc]⟩
          | false =>
              obtain ⟨hfront, heq⟩ := hopen got (message ++ piece) hlonger h.2
              simp only [firsts, assemble, allInFirst_cons, heq, prefix_eq_append_iff hgot]
              exact ⟨hfront, by simp [and_assoc]⟩

end WebSocketHft.Fragments
