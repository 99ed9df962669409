import WebSocketHft.Model.IoKqueue
import WebSocketHft.Shared.Positions
import WebSocketHft.Shared.Runs

/-! # The socket registry and the kqueue

The registry is a compact array of slots, and the kqueue knows for each descriptor
the index of its slot. Both stay in step over every run, although removing a
socket moves the last slot. For the same reason an index that a caller has kept
can lose its socket. -/

namespace WebSocketHft

open WebSocketHft.Positions WebSocketHft.Runs

/-! ## Calls -/

inductive IoCall where
  | add (fd : ℤ) (configured registered : Bool)
  | remove (fd : ℤ)
  | poll (events : Option (List KEvent))

/-- The context after a call. -/
def IoCall.run (ctx : IOContext) : IoCall → IOContext
  | .add fd configured registered => (ioAddSocket ctx fd configured registered).2
  | .remove fd => (ioRemoveSocket ctx fd).2
  | .poll events => (ioPoll ctx events).2

/-- The descriptors of the registry, slot by slot. -/
def slotFds (ctx : IOContext) : List ℤ := ctx.sockets.map (·.fd)

theorem length_slotFds (ctx : IOContext) : (slotFds ctx).length = ctx.sockets.length :=
  List.length_map _

variable {ctx : IOContext}

/-- A socket is added at the end, or nothing happens. -/
theorem ioAddSocket_cases (ctx : IOContext) (fd : ℤ) (configured registered : Bool) :
    ioAddSocket ctx fd configured registered = (-1, ctx) ∨
      ctx.sockets.length < ioMaxSockets ∧
        ioAddSocket ctx fd configured registered =
          ((ctx.sockets.length : ℤ),
            ⟨addFilter ctx.kq fd ctx.sockets.length, ctx.sockets ++ [⟨fd, 0⟩]⟩) := by
  unfold ioAddSocket
  dsimp only
  split_ifs with hguard
  · exact Or.inl rfl
  · exact Or.inl rfl
  · exact Or.inl rfl
  · exact Or.inr ⟨not_le.mp fun hfull => hguard (Or.inr hfull), rfl⟩

/-- A registered socket is removed by moving the last slot into its place. -/
theorem ioRemoveSocket_cases (ctx : IOContext) (fd : ℤ) :
    (¬(0 ≤ fd ∧ fd ∈ slotFds ctx) ∧ ioRemoveSocket ctx fd = (-1, ctx)) ∨
      (0 ≤ fd ∧ fd ∈ slotFds ctx) ∧
        ∃ i last, (slotFds ctx)[i]? = some fd ∧ (slotFds ctx).getLast? = some last ∧
          (ioRemoveSocket ctx fd).1 = 0 ∧
          slotFds (ioRemoveSocket ctx fd).2 = swapRemove (slotFds ctx) i ∧
          (ioRemoveSocket ctx fd).2.kq =
            if i + 1 < (slotFds ctx).length then addFilter (deleteFilter ctx.kq fd) last i
            else deleteFilter ctx.kq fd := by
  have hmem : ctx.sockets.findIdx (·.fd = fd) < ctx.sockets.length ↔ fd ∈ slotFds ctx := by
    rw [List.findIdx_lt_length]
    simp [slotFds]
  unfold ioRemoveSocket
  dsimp only
  by_cases hneg : fd < 0
  · rw [if_pos hneg]
    exact Or.inl ⟨fun hboth => absurd hboth.1 (not_le.mpr hneg), rfl⟩
  · rw [if_neg hneg]
    by_cases hfound : ctx.sockets.findIdx (·.fd = fd) < ctx.sockets.length
    · rw [if_neg (not_le.mpr hfound)]
      refine Or.inr ⟨⟨not_lt.mp hneg, hmem.mp hfound⟩, ?_⟩
      have hfd : (slotFds ctx)[ctx.sockets.findIdx (·.fd = fd)]? = some fd := by
        have hslot := List.findIdx_getElem (w := hfound)
        rw [slotFds, List.getElem?_map, List.getElem?_eq_getElem hfound, Option.map_some]
        exact congrArg some (of_decide_eq_true hslot)
      generalize ctx.sockets.findIdx (·.fd = fd) = i at hfound hfd
      cases hlast : ctx.sockets.getLast? with
      | none =>
          rw [List.getLast?_eq_none_iff] at hlast
          rw [hlast] at hfound
          exact absurd hfound (Nat.not_lt_zero i)
      | some sock =>
          have hlastFd : (slotFds ctx).getLast? = some sock.fd := by
            rw [slotFds, List.getLast?_map, hlast, Option.map_some]
          have hslots : (swapRemove ctx.sockets i).map (·.fd) = swapRemove (slotFds ctx) i :=
            map_swapRemove _ _ _
          refine ⟨i, sock.fd, hfd, hlastFd, ?_⟩
          dsimp only
          rw [length_slotFds]
          by_cases hswap : i + 1 < ctx.sockets.length
          · rw [if_pos (show i < ctx.sockets.length - 1 by omega), if_pos hswap]
            rw [swapRemove_of_getLast? hlast] at hslots
            exact ⟨rfl, hslots, rfl⟩
          · -- the last slot itself is removed
            rw [if_neg (show ¬i < ctx.sockets.length - 1 by omega), if_neg hswap]
            rw [swapRemove_last (by omega)] at hslots
            exact ⟨rfl, hslots, rfl⟩
    · rw [if_pos (not_lt.mp hfound)]
      exact Or.inl ⟨fun hboth => hfound (hmem.mpr hboth.2), rfl⟩

theorem sockets_foldl_rearm (events : List KEvent) (ctx : IOContext) :
    (events.foldl rearm ctx).sockets = ctx.sockets := by
  induction events generalizing ctx with
  | nil => rfl
  | cons ev events ih =>
      have hone : (rearm ctx ev).sockets = ctx.sockets := by
        unfold rearm
        cases ctx.sockets[ev.udata]? <;> rfl
      exact (ih _).trans hone

theorem sockets_ioPoll (ctx : IOContext) (events : Option (List KEvent)) :
    (ioPoll ctx events).2.sockets = ctx.sockets := by
  cases events with
  | none => rfl
  | some events => exact sockets_foldl_rearm events _

/-! ## In step -/

/-- The kqueue has exactly one entry for each slot, with the descriptor of the slot as its key
and the index as its `udata`. -/
structure InStep (ctx : IOContext) : Prop where
  entries : ∃ filters, ctx.kq = some filters ∧ Indexes filters (slotFds ctx)
  length_le : ctx.sockets.length ≤ ioMaxSockets

theorem inStep_ioInit (h : ioInit true = some ctx) : InStep ctx := by
  cases h
  exact ⟨⟨fun _ => none, rfl, .nil⟩, Nat.zero_le _⟩

theorem InStep.add (h : InStep ctx) {fd : ℤ} (hfd : fd ∉ slotFds ctx)
    (configured registered : Bool) :
    InStep (ioAddSocket ctx fd configured registered).2 := by
  obtain ⟨filters, hkq, hindex⟩ := h.entries
  rcases ioAddSocket_cases ctx fd configured registered with heq | ⟨hlt, heq⟩
  · rwa [heq]
  · rw [heq]
    refine ⟨⟨Function.update filters fd (some ctx.sockets.length), ?_, ?_⟩, ?_⟩
    · change addFilter ctx.kq fd ctx.sockets.length = _
      rw [hkq]
      rfl
    · have hpush := hindex.push hfd
      rw [length_slotFds] at hpush
      have hslots : slotFds ⟨addFilter ctx.kq fd ctx.sockets.length, ctx.sockets ++ [⟨fd, 0⟩]⟩ =
          slotFds ctx ++ [fd] := List.map_append
      rwa [hslots]
    · change (ctx.sockets ++ [(⟨fd, 0⟩ : IOSocket)]).length ≤ ioMaxSockets
      rw [List.length_append]
      exact hlt

theorem InStep.remove (h : InStep ctx) (fd : ℤ) : InStep (ioRemoveSocket ctx fd).2 := by
  obtain ⟨filters, hkq, hindex⟩ := h.entries
  rcases ioRemoveSocket_cases ctx fd with ⟨-, heq⟩ | ⟨-, i, last, hfd, hlast, -, hslots, hfilters⟩
  · rwa [heq]
  · refine ⟨?_, ?_⟩
    · rw [hslots, hfilters, hkq]
      by_cases hswap : i + 1 < (slotFds ctx).length
      · rw [if_pos hswap]
        exact ⟨_, rfl, hindex.removeSwap hfd hlast hswap⟩
      · rw [if_neg hswap]
        exact ⟨_, rfl, hindex.removeLast hfd hswap⟩
    · have hle := h.length_le
      rw [← length_slotFds, hslots, length_swapRemove, length_slotFds]
      omega

/-- `kevent` delivers an event for a filter that the map holds. -/
def Delivered (ctx : IOContext) (ev : KEvent) : Prop :=
  ev.filter = .read ∧ ∃ filters, ctx.kq = some filters ∧ filters ev.ident = some ev.udata

/-- The slot that a delivered event names holds the descriptor the event is for. -/
theorem InStep.delivered (h : InStep ctx) {ev : KEvent} (hev : Delivered ctx ev) :
    (slotFds ctx)[ev.udata]? = some ev.ident := by
  obtain ⟨filters, hkq, hindex⟩ := h.entries
  obtain ⟨-, filters', hkq', hentry⟩ := hev
  rw [hkq, Option.some_inj] at hkq'
  subst hkq'
  exact (hindex ev.ident ev.udata).mp hentry

/-- Delivery takes the entries of the events out of the map. -/
theorem foldl_deliverEvent (events : List KEvent) (hread : ∀ ev ∈ events, ev.filter = .read)
    (filters : ℤ → Option ℕ) :
    events.foldl deliverEvent (some filters) =
      some fun fd => if fd ∉ events.map (·.ident) then filters fd else none := by
  induction events generalizing filters with
  | nil => simp
  | cons ev events ih =>
      have hone : deliverEvent (some filters) ev = some (Function.update filters ev.ident none) := by
        rw [deliverEvent, hread ev List.mem_cons_self]
        rfl
      rw [List.foldl_cons, hone, ih (fun ev' hev => hread ev' (List.mem_cons_of_mem _ hev))]
      congr 1
      funext fd
      by_cases hfd : fd = ev.ident
      · simp [hfd]
      · simp [hfd]

/-- The loop of `io_poll` puts the entry of each event back. -/
theorem foldl_rearm (events : List KEvent)
    (hslots : ∀ ev ∈ events, (slotFds ctx)[ev.udata]? = some ev.ident) {filters : ℤ → Option ℕ}
    (hindex : Indexes filters (slotFds ctx)) (present : ℤ → Prop) [DecidablePred present] :
    (events.foldl rearm { ctx with kq := some fun fd => if present fd then filters fd else none }).kq
      = some fun fd => if present fd ∨ fd ∈ events.map (·.ident) then filters fd else none := by
  induction events generalizing present with
  | nil => simp
  | cons ev events ih =>
      have hslot := hslots ev List.mem_cons_self
      have hentry : filters ev.ident = some ev.udata := (hindex _ _).mpr hslot
      rw [slotFds, List.getElem?_map, Option.map_eq_some_iff] at hslot
      obtain ⟨sock, hsock, hfd⟩ := hslot
      have hone : rearm { ctx with kq := some fun fd => if present fd then filters fd else none } ev =
          { ctx with kq := some fun fd =>
            if present fd ∨ fd = ev.ident then filters fd else none } := by
        simp only [rearm, hsock, hfd, addFilter, Option.map_some]
        congr 2
        funext fd
        by_cases heq : fd = ev.ident
        · rw [heq, Function.update_self, if_pos (Or.inr rfl), hentry]
        · rw [Function.update_of_ne heq]
          simp [heq]
      rw [List.foldl_cons, hone,
        ih (fun ev' hev => hslots ev' (List.mem_cons_of_mem _ hev)) (fun fd => present fd ∨ fd = ev.ident)]
      simp only [List.map_cons, List.mem_cons, or_assoc]

theorem InStep.poll (h : InStep ctx) {events : List KEvent}
    (hevents : ∀ ev ∈ events, Delivered ctx ev) : InStep (ioPoll ctx (some events)).2 := by
  obtain ⟨filters, hkq, hindex⟩ := h.entries
  have hsockets := sockets_ioPoll ctx (some events)
  have hslots : slotFds (ioPoll ctx (some events)).2 = slotFds ctx :=
    congrArg (List.map IOSocket.fd) hsockets
  have hsame : (ioPoll ctx (some events)).2.kq = some filters := by
    change (events.foldl rearm { ctx with kq := events.foldl deliverEvent ctx.kq }).kq = _
    rw [hkq, foldl_deliverEvent events fun ev hev => (hevents ev hev).1]
    have hall (fd : ℤ) : fd ∉ events.map (·.ident) ∨ fd ∈ events.map (·.ident) := em' _
    rw [foldl_rearm events (fun ev hev => h.delivered (hevents ev hev)) hindex
      (fun fd => fd ∉ events.map (·.ident))]
    simp only [hall, if_true]
  refine ⟨⟨filters, hsame, ?_⟩, ?_⟩
  · rwa [hslots]
  · rw [hsockets]
    exact h.length_le

/-- Descriptors are added once, and events are delivered from the map. -/
def IoCall.Allowed (ctx : IOContext) : IoCall → Prop
  | .add fd _ _ => fd ∉ slotFds ctx
  | .remove _ => True
  | .poll none => True
  | .poll (some events) => ∀ ev ∈ events, Delivered ctx ev

/-- Over every run of such calls from `io_init` on, the map has exactly one entry per slot,
with the slot's descriptor as key and its index as `udata`; the descriptors are distinct, and
there is room for them. So a delivered event names the slot of its descriptor. -/
theorem registry_in_step (ctx : IOContext) (hinit : ioInit true = some ctx) (calls : List IoCall)
    (hcalls : Along IoCall.run IoCall.Allowed ctx calls) :
    let ctx' := calls.foldl IoCall.run ctx
    (∃ filters, ctx'.kq = some filters ∧
        ∀ fd i, filters fd = some i ↔ (ctx'.sockets.map (·.fd))[i]? = some fd) ∧
      (ctx'.sockets.map (·.fd)).Nodup ∧ ctx'.sockets.length ≤ ioMaxSockets ∧
      ∀ ev, Delivered ctx' ev → (ctx'.sockets.map (·.fd))[ev.udata]? = some ev.ident := by
  have hrun : InStep (calls.foldl IoCall.run ctx) := by
    refine hcalls.invariant ?_ (inStep_ioInit hinit)
    intro ctx call hctx hallowed
    cases call with
    | add fd configured registered => exact hctx.add hallowed configured registered
    | remove fd => exact hctx.remove fd
    | poll events =>
        cases events with
        | none => exact hctx
        | some events => exact hctx.poll hallowed
  obtain ⟨filters, hkq, hindex⟩ := hrun.entries
  exact ⟨⟨filters, hkq, hindex⟩, hindex.nodup, hrun.length_le, fun ev hev => hrun.delivered hev⟩

/-- Three sockets, the first is removed, and the third is polled under its new index. -/
theorem registry_in_step_three_sockets :
    let calls : List IoCall := [.add 5 true true, .add 6 true true, .add 7 true true, .remove 5,
      .poll (some [⟨7, 0, false, false, .read, .failed⟩])]
    let ctx' := calls.foldl IoCall.run ⟨some fun _ => none, []⟩
    ctx'.sockets.map (·.fd) = [7, 6] ∧
      (∃ filters, ctx'.kq = some filters ∧
        ∀ fd i, filters fd = some i ↔ (ctx'.sockets.map (·.fd))[i]? = some fd) := by
  intro calls ctx'
  have hallowed : Along IoCall.run IoCall.Allowed ⟨some fun _ => none, []⟩ calls := by
    refine ⟨?_, ?_, ?_, trivial, ?_, trivial⟩
    · change (5 : ℤ) ∉ slotFds _
      decide
    · change (6 : ℤ) ∉ slotFds _
      decide
    · change (7 : ℤ) ∉ slotFds _
      decide
    · intro ev hev
      rw [List.mem_singleton.mp hev]
      exact ⟨rfl, _, rfl, by decide⟩
  exact ⟨by decide, (registry_in_step ⟨some fun _ => none, []⟩ rfl calls hallowed).1⟩

/-! ## Kept indices -/

theorem slotFds_add (ctx : IOContext) (fd : ℤ) (configured registered : Bool) :
    slotFds ctx <+: slotFds (ioAddSocket ctx fd configured registered).2 := by
  rcases ioAddSocket_cases ctx fd configured registered with heq | ⟨-, heq⟩
  · exact ⟨[], by rw [heq, List.append_nil]⟩
  · rw [heq]
    exact ⟨[fd], by simp [slotFds]⟩

/-- Removing another socket leaves a slot in place exactly when it is not the last one. -/
theorem slot_remove_iff {k : ℕ} {fd other : ℤ} (hslot : (slotFds ctx)[k]? = some fd)
    (hne : other ≠ fd) :
    (slotFds (ioRemoveSocket ctx other).2)[k]? = some fd ↔
      (0 ≤ other ∧ other ∈ slotFds ctx → k + 1 < ctx.sockets.length) := by
  rcases ioRemoveSocket_cases ctx other with ⟨hnot, heq⟩ | ⟨hmem, i, last, hother, -, -, hslots, -⟩
  · rw [heq]
    exact iff_of_true hslot fun hmem => absurd hmem hnot
  · have hi : i < (slotFds ctx).length := (List.getElem?_eq_some_iff.mp hother).1
    have hki : k ≠ i := by
      rintro rfl
      rw [hslot, Option.some_inj] at hother
      exact hne hother.symm
    rw [hslots, getElem?_swapRemove _ _ _ hi, if_neg hki, hslot, length_slotFds]
    simp [hmem]

/-- A removal finds the slot before the last one, or removes nothing. -/
def IoCall.Spares (k : ℕ) (ctx : IOContext) : IoCall → Prop
  | .remove fd => 0 ≤ fd ∧ fd ∈ slotFds ctx → k + 1 < ctx.sockets.length
  | _ => True

theorem slot_run_iff {k : ℕ} {fd : ℤ} (hslot : (slotFds ctx)[k]? = some fd) {call : IoCall}
    (hcall : call ≠ .remove fd) :
    (slotFds (call.run ctx))[k]? = some fd ↔ call.Spares k ctx := by
  cases call with
  | add other configured registered =>
      refine iff_of_true ?_ trivial
      obtain ⟨rest, hrest⟩ := slotFds_add ctx other configured registered
      have hk : k < (slotFds ctx).length := (List.getElem?_eq_some_iff.mp hslot).1
      change (slotFds (ioAddSocket ctx other configured registered).2)[k]? = some fd
      rw [← hrest, List.getElem?_append_left hk, hslot]
  | remove other => exact slot_remove_iff hslot fun heq => hcall (by rw [heq])
  | poll events =>
      refine iff_of_true ?_ trivial
      change ((ioPoll ctx events).2.sockets.map (·.fd))[k]? = some fd
      rw [sockets_ioPoll]
      exact hslot

/-- `io_add_socket` has returned the index `k` for a descriptor that is not removed
afterwards: the slot with that index holds the descriptor at every later moment exactly when
no removal of another socket finds it in the last slot. -/
theorem socket_index_kept_iff (ctx : IOContext) (fd : ℤ) (configured registered : Bool) (k : ℕ)
    (hadded : (ioAddSocket ctx fd configured registered).1 = k) (calls : List IoCall)
    (hkept : ∀ call ∈ calls, call ≠ .remove fd) :
    Always IoCall.run (fun ctx' => ∃ sock, ctx'.sockets[k]? = some sock ∧ sock.fd = fd)
        (ioAddSocket ctx fd configured registered).2 calls ↔
      Along IoCall.run (fun ctx' call => call.Spares k ctx')
        (ioAddSocket ctx fd configured registered).2 calls := by
  have hslot (ctx' : IOContext) : (∃ sock, ctx'.sockets[k]? = some sock ∧ sock.fd = fd) ↔
      (slotFds ctx')[k]? = some fd := by
    rw [slotFds, List.getElem?_map, Option.map_eq_some_iff]
  refine always_iff_along ?_ hkept ?_
  · intro ctx' call hbefore hcall
    rw [hslot] at hbefore ⊢
    exact slot_run_iff hbefore hcall
  · rw [hslot]
    rcases ioAddSocket_cases ctx fd configured registered with heq | ⟨-, heq⟩
    · rw [heq] at hadded
      exact absurd hadded (by simp)
    · rw [heq] at hadded ⊢
      have hk : k = ctx.sockets.length := (Int.ofNat.inj hadded).symm
      simp [slotFds, hk]

/-- The first of two sockets keeps its slot when the second is removed. -/
theorem first_socket_keeps_index :
    (ioAddSocket ⟨some fun _ => none, []⟩ 5 true true).1 = 0 ∧
      ∃ sock, ([.add 6 true true, .remove 6].foldl IoCall.run
        (ioAddSocket ⟨some fun _ => none, []⟩ 5 true true).2).sockets[0]? = some sock ∧
          sock.fd = 5 := by
  have hspares : Along IoCall.run (fun ctx' call => call.Spares 0 ctx')
      (ioAddSocket ⟨some fun _ => none, []⟩ 5 true true).2 [.add 6 true true, .remove 6] :=
    ⟨trivial, fun _ => by decide, trivial⟩
  have hkept : ∀ call ∈ [IoCall.add 6 true true, .remove 6], call ≠ .remove 5 := by
    simp
  exact ⟨rfl, (socket_index_kept_iff ⟨some fun _ => none, []⟩ 5 true true 0 rfl _ hkept).mpr
    hspares _ List.prefix_rfl⟩

/-- The second of two sockets has been given the index 1. When the first one is removed, that
index is out of range, and `io_write` fails for it; a third socket is then given the same
index. -/
theorem index_loses_socket :
    let ctx := (ioAddSocket ⟨some fun _ => none, []⟩ 5 true true).2
    let ctx₁ := [IoCall.remove 5].foldl IoCall.run (ioAddSocket ctx 6 true true).2
    let ctx₂ := [IoCall.remove 5, .add 7 true true].foldl IoCall.run (ioAddSocket ctx 6 true true).2
    (ioAddSocket ctx 6 true true).1 = 1 ∧
      ctx₁.sockets.map (·.fd) = [6] ∧ ctx₁.sockets[1]? = none ∧
      (ioWrite (some ctx₁) 1 ⟨fun _ => 0, 4, 0, 1⟩ (some 1)).ret = -1 ∧
      ctx₂.sockets.map (·.fd) = [6, 7] ∧ ctx₂.sockets[1]? = some ⟨7, 0⟩ := by
  decide

end WebSocketHft
