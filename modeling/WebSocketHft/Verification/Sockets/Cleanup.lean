import Mathlib.Data.List.Count
import Mathlib.Data.Prod.Basic
import WebSocketHft.Verification.Sockets.Registry

/-! # What `io_cleanup` removes

The loop goes up through the slots while every removal moves the last slot into the
current one. What was moved is never looked at, so that the loop meets the slots
from the end half way. -/

namespace WebSocketHft

open WebSocketHft.Positions

theorem ioRemoveSocket_slot {ctx : IOContext} (hnodup : (slotFds ctx).Nodup) {i : ℕ} {fd : ℤ}
    (hslot : (slotFds ctx)[i]? = some fd) (hfd : 0 ≤ fd) :
    (ioRemoveSocket ctx fd).1 = 0 ∧
      slotFds (ioRemoveSocket ctx fd).2 = swapRemove (slotFds ctx) i := by
  rcases ioRemoveSocket_cases ctx fd with ⟨hnone, -⟩ | ⟨-, j, last, hfound, -, hret, hslots, -⟩
  · exact absurd ⟨hfd, List.mem_of_getElem? hslot⟩ hnone
  · have hj : j < (slotFds ctx).length := (List.getElem?_eq_some_iff.mp hfound).1
    obtain rfl : j = i := (List.getElem?_inj hj hnodup).mp (hfound.trans hslot.symm)
    exact ⟨hret, hslots⟩

/-- From slot `i` on, the loop removes the first half of the sockets ahead, rounded up. -/
theorem cleanupLoop_calls {ctx : IOContext} (hnodup : (slotFds ctx).Nodup)
    (hfds : ∀ fd ∈ slotFds ctx, 0 ≤ fd) {left i : ℕ} (hleft : (slotFds ctx).length ≤ i + left) :
    (cleanupLoop left i ctx).1 =
      (((slotFds ctx).drop i).take (((slotFds ctx).length - i + 1) / 2)).map (·, 0) := by
  induction left generalizing i ctx with
  | zero =>
      rw [List.drop_of_length_le (by omega), List.take_nil]
      rfl
  | succ left ih =>
      unfold cleanupLoop
      cases hsock : ctx.sockets[i]? with
      | none =>
          have hlen : (slotFds ctx).length ≤ i := by
            rw [length_slotFds]
            exact List.getElem?_eq_none_iff.mp hsock
          rw [List.drop_of_length_le hlen, List.take_nil]
          rfl
      | some sock =>
          have hslot : (slotFds ctx)[i]? = some sock.fd := by
            rw [slotFds, List.getElem?_map, hsock, Option.map_some]
          obtain ⟨hi, hget⟩ := List.getElem?_eq_some_iff.mp hslot
          have hfd : 0 ≤ sock.fd := hfds _ (List.mem_of_getElem? hslot)
          obtain ⟨hret, hslots⟩ := ioRemoveSocket_slot hnodup hslot hfd
          have hperm := cons_swapRemove_perm hslot
          have hlength : (swapRemove (slotFds ctx) i).length = (slotFds ctx).length - 1 :=
            length_swapRemove _ _
          -- the sockets ahead of the next slot are those ahead of this one but for the last
          have hrest : (cleanupLoop left (i + 1) (ioRemoveSocket ctx sock.fd).2).1 = _ :=
            ih (hslots ▸ (hperm.nodup_iff.mpr hnodup).of_cons)
              (hslots ▸ fun fd hmem => hfds fd (hperm.subset (List.mem_cons_of_mem _ hmem)))
              (by rw [hslots]; omega)
          rw [hslots, hlength, drop_swapRemove hi] at hrest
          have hcount : ((slotFds ctx).length - i + 1) / 2 =
              ((slotFds ctx).length - 1 - (i + 1) + 1) / 2 + 1 := by omega
          dsimp only
          rw [if_pos (by omega), hret, hrest, List.drop_eq_getElem_cons hi, hget, hcount,
            List.take_succ_cons, List.map_cons, List.dropLast_eq_take, List.take_take,
            min_eq_left (by rw [List.length_drop]; omega)]

theorem ioCleanup_calls {ctx : IOContext} (hnodup : (slotFds ctx).Nodup)
    (hfds : ∀ fd ∈ slotFds ctx, 0 ≤ fd) :
    (ioCleanup ctx).1 = ((slotFds ctx).take (((slotFds ctx).length + 1) / 2)).map (·, 0) := by
  have hcalls : (cleanupLoop ctx.sockets.length 0 ctx).1 = _ :=
    cleanupLoop_calls hnodup hfds (by rw [length_slotFds, Nat.zero_add])
  rwa [List.drop_zero, Nat.sub_zero] at hcalls

/-- For every registry of distinct descriptors: `io_cleanup` removes each of them successfully
and once, before it closes the kqueue, if and only if there is at most one. -/
theorem cleanup_removes_each_iff (ctx : IOContext) (hnodup : (slotFds ctx).Nodup)
    (hfds : ∀ fd ∈ slotFds ctx, 0 ≤ fd) :
    (∀ fd ∈ slotFds ctx, (ioCleanup ctx).1.count (fd, 0) = 1) ↔ ctx.sockets.length ≤ 1 := by
  rw [ioCleanup_calls hnodup hfds, ← length_slotFds]
  generalize slotFds ctx = fds at hnodup
  constructor
  · intro hall
    by_contra hmany
    -- the last descriptor is not in the first half
    have hlast : fds.length - 1 < fds.length := by omega
    have hmem : (fds[fds.length - 1], (0 : ℤ)) ∈ (fds.take ((fds.length + 1) / 2)).map (·, (0 : ℤ)) :=
      List.count_pos_iff.mp (by rw [hall _ (List.getElem_mem hlast)]; exact Nat.one_pos)
    obtain ⟨fd, hfd, heq⟩ := List.mem_map.mp hmem
    obtain ⟨j, hj, hget⟩ := List.mem_take_iff_getElem.mp hfd
    have hsame : fds[j] = fds[fds.length - 1] := hget.trans (Prod.mk.inj heq).1
    have hindex := (hnodup.getElem_inj_iff).mp hsame
    omega
  · intro hfew fd hmem
    have hcut : fds.take ((fds.length + 1) / 2) = fds := List.take_of_length_le (by omega)
    rw [hcut, List.count_map_of_injective _ _ (Prod.mk_left_injective 0)]
    exact List.count_eq_one_of_mem hnodup hmem

def oneSocket : IOContext := (ioAddSocket ⟨some fun _ => none, []⟩ 3 true true).2

theorem cleanup_removes_only_socket : (ioCleanup oneSocket).1.count (3, 0) = 1 :=
  (cleanup_removes_each_iff oneSocket (by decide) (by decide)).mpr (by decide) 3 (by decide)

theorem cleanup_misses_second_socket :
    let ctx := (ioAddSocket oneSocket 4 true true).2
    slotFds ctx = [3, 4] ∧ (ioCleanup ctx).1 = [(3, 0)] := by
  decide

end WebSocketHft
