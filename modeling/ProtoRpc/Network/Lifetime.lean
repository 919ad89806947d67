import ProtoRpc.Network.Assertions
import ProtoRpc.Network.QueueOrder

/-!
The end of a connection. The table of its server, the functors that are bound to a shared
pointer, and the callbacks that were given one keep a connection in being. Once none of these
is left, and its user lets go of it, the destructors run; what they assert is that the
connection is down, and that its channel handles no event, has been removed and is not known
to the poller.
-/
namespace ProtoRpc

namespace Poller
variable {C : Type} [DecidableEq C] {p p' : Poller C}

/-- `addedToLoop_` says what the poller says. -/
def Marked (p : Poller C) : Prop :=
  ∀ c, (p.table c).addedToLoop = true ↔ (p.table c).index ≠ .kNew

omit [DecidableEq C] in
theorem marked_new (fd : C → Int) : Marked (new fd) :=
  fun _ => ⟨fun hadded => (by cases hadded), fun hindex => absurd rfl hindex⟩

theorem Marked.step (hmarked : p.Marked) (h : p.Agrees) {call : Call C}
    (hstep : Step p call p') : p'.Marked := by
  obtain ⟨-, -, hframe⟩ := hstep.frame h
  obtain ⟨-, ctls, rfl⟩ := hstep.become h
  intro d
  by_cases hd : d = call.channel
  · subst hd
    cases call with
    | interest c op =>
        simp only [become, Call.after, Call.channel, Function.update_self, indexAfter]
        split <;> simp
    | remove c => simp [become, Call.after, Call.channel]
  · rw [hframe d hd]
    exact hmarked d

theorem Marked.called (hmarked : p.Marked) (h : p.Agrees) {c : C} (hcalled : Called c p p') :
    p'.Marked := by
  rcases hcalled with rfl | ⟨call, -, hstep⟩
  · exact hmarked
  · exact hmarked.step h hstep

end Poller

namespace Connection
open Transition

variable {C : Type} [DecidableEq C] {chan : C} {oneLoop : Bool} {w w' : Connection C}

theorem marked_exec (h : w.server.poller.Agrees) (hmarked : w.server.poller.Marked) {e : Event C}
    (hexec : Exec chan oneLoop w e (.ok w')) : w'.server.poller.Marked := by
  by_cases hmember : e.ofMember = true
  · exact hmarked.called h ((hexec.local hmember).poller h)
  generalize hr : Except.ok w' = result at hexec
  cases hexec with
  | server hqueue hexec =>
      obtain ⟨s, rfl, hw'⟩ := bind_ok_inv hr.symm
      cases hw'
      generalize hs : Except.ok s = result at hexec
      cases hexec with
      | poll =>
          obtain ⟨active, -, hs⟩ := bind_ok_inv hs.symm
          cases hs
          exact hmarked
      | otherChannel _ hallowed _ =>
          obtain ⟨p, hp, hs⟩ := bind_ok_inv hs.symm
          cases hs
          exact hmarked.step h ⟨hallowed, hp⟩
      | handleEvent | otherFunctor =>
          cases hs
          exact hmarked
      | doPendingFunctors | functor | endBatch => cases hqueue
      | _ => exact absurd rfl hmember
  | task _ _ _ _ => exact hmarked.called h ((local_runTask hr.symm).poller h)
  | doPendingFunctors | endBatch =>
      cases hr
      exact hmarked
  | _ => exact absurd rfl hmember

theorem marked_of_run {fd : C → Int} {events : List (Event C)}
    (hrun : Run (Guarded (Step chan oneLoop) (Orderly chan)) (new fd) events w) :
    w.server.poller.Marked := by
  suffices h : Inv chan w ∧ w.server.poller.Marked from h.2
  refine hrun.invariant (I := fun w => Inv chan w ∧ w.server.poller.Marked)
    ⟨inv_new fd, Poller.marked_new fd⟩ ?_
  rintro w e w' ⟨h, hmarked⟩ ⟨-, hstep⟩
  exact ⟨h.exec hstep rfl, marked_exec h.wired.agrees hmarked hstep⟩

end Connection

/-- The functors that are bound to a shared pointer; the others have the address only. -/
def ConnTask.holds : ConnTask → Bool
  | .io .connectEstablished | .io .connectDestroyed | .io (.own .forceCloseInLoop) => true
  | _ => false

/-- The frames of callbacks, which were given a shared pointer, and of a functor that is bound
to one; those of `handleEvent` have the address only. -/
def Frame.holds : Frame → Bool
  | .connectionCallback | .messageCallback | .closeCallback | .remove => true
  | .close | .read | .write | .error => false

namespace IoLoop
open Transition

variable {C : Type} [DecidableEq C] {oneLoop : C → Bool} {c : C} {w : IoLoop C}

/-- Somebody else than the user holds a shared pointer to the connection on channel `c`. -/
def Referenced (w : IoLoop C) (c : C) : Prop :=
  (w.members c).listed = true ∨ 0 < (w.members c).removals ∨
    (∃ t : ConnTask, t.holds = true ∧ (c, t) ∈ w.tasks ++ w.pendingTasks) ∨
    ∃ f ∈ (w.members c).todo, f.holds = true

theorem count_unreferenced (hlast : ¬ w.Referenced c) {t : ConnTask} (ht : t.holds = true) :
    (w.project c).queued.count t = 0 := by
  rw [count_queued_project, List.count_eq_zero]
  · exact fun hmem => hlast (Or.inr (Or.inr (Or.inl ⟨t, ht, hmem⟩)))
  · rintro rfl
    cases ht

/-- Without a reference to it, an accepted connection has been destroyed. -/
theorem destroyed_of_unreferenced (h : (w.project c).Ordered c)
    (haccepted : (w.members c).accepted = true) (hlast : ¬ w.Referenced c) :
    0 < (w.project c).server.destroyed ∧ (w.project c).server.conn.state = .kDisconnected := by
  have hlisted := h.duties.listed
  have hunlisted : ¬ (w.project c).server.listed = true := fun hin => hlast (Or.inl hin)
  change (w.project c).server.accepted = true at haccepted
  rw [count_unreferenced hlast rfl, if_neg hunlisted, if_pos haccepted] at hlisted
  have hdestroyed : 0 < (w.project c).server.destroyed := by omega
  exact ⟨hdestroyed, h.inv.chores.leaving (Or.inr (Or.inr (Or.inr (Or.inr hdestroyed))))⟩

/-- When the last reference to a connection goes, but for those of its user, the destructors
find what they assert: it is down, its channel handles no event and has been removed, and the
poller has forgotten it. Each public operation is one event. -/
theorem destructors_assert {fd : C → Int} {events : List (Event C)}
    (hrun : Run (Guarded (Step oneLoop) (OwnedUnder c (Connection.Orderly c))) (new fd) events w)
    (haccepted : (w.members c).accepted = true) (hlast : ¬ w.Referenced c) :
    (w.members c).conn.state = .kDisconnected ∧ (w.members c).todo = [] ∧
      (w.poller.table c).addedToLoop = false ∧ (w.poller.table c).isNoneEvent = true ∧
      (∀ fd, w.poller.channels fd ≠ some c) ∧ ∀ fd mask, w.poller.interest fd ≠ some (mask, c) := by
  obtain ⟨-, events', hrun', -⟩ := project_run (Connection.overlooks_orderly c) hrun
  have h := Connection.ordered_of_run hrun'
  have hmarked := Connection.marked_of_run hrun'
  obtain ⟨hdestroyed, hdown⟩ := destroyed_of_unreferenced h haccepted hlast
  have htodo : (w.project c).server.todo = [] := by
    rw [List.eq_nil_iff_forall_not_mem]
    intro f hf
    obtain rfl := h.duties.ended hdestroyed f hf
    exact hlast (Or.inr (Or.inr (Or.inr ⟨.remove, hf, rfl⟩)))
  have hdisarmed := h.disarmed hdown
  have hindex := hdisarmed.gone hdestroyed (by rw [htodo]; exact List.not_mem_nil)
  obtain ⟨hchannels, hinterest⟩ := h.inv.wired.agrees.out_of_poller hindex
  refine ⟨hdown, htodo, ?_, ?_, hchannels, hinterest⟩
  · by_contra hadded
    exact (hmarked c).mp (Bool.eq_true_of_not_eq_false hadded) hindex
  · rw [Channel.isNoneEvent]
    exact beq_iff_eq.mpr hdisarmed.events

/-- Neither an event that was reported nor a functor of `send` or `shutdown` outlives the
last reference: only `startRead` and `stopRead` leave functors with the address of a
connection that may be no more. Each public operation is one event. -/
theorem last_call {fd : C → Int} {events : List (Event C)}
    (hrun : Run (Guarded (Step oneLoop) (OwnedUnder c (Connection.Orderly c))) (new fd) events w)
    (haccepted : (w.members c).accepted = true) (hlast : ¬ w.Referenced c) :
    (∀ x ∈ w.remaining, x.1 ≠ c) ∧
      ∀ t : ConnTask, (c, t) ∈ w.tasks ++ w.pendingTasks →
        t = .startReadInLoop ∨ t = .stopReadInLoop ∨ t = .io .other := by
  obtain ⟨-, events', hrun', -⟩ := project_run (Connection.overlooks_orderly c) hrun
  have h := Connection.ordered_of_run hrun'
  have htrails := Connection.trails_of_run hrun'
  obtain ⟨hdestroyed, hdown⟩ := destroyed_of_unreferenced h haccepted hlast
  constructor
  · rintro x hx rfl
    have hcloses := (h.disarmed hdown).polled.closes
    have hmem : x.1 ∈ (w.project x.1).server.remaining.map Prod.fst :=
      List.mem_map.mpr ⟨x, hx, rfl⟩
    have hpos := List.count_pos_iff.mpr hmem
    omega
  · intro t ht
    have hqueued : t ≠ .io .other → t ∈ (w.project c).queued := by
      intro hother
      rw [← List.count_pos_iff, count_queued_project hother]
      exact List.count_pos_iff.mpr ht
    by_cases hholds : t.holds = true
    · exact absurd (Or.inr (Or.inr (Or.inl ⟨t, hholds, ht⟩))) hlast
    · cases t with
      | startReadInLoop => exact Or.inl rfl
      | stopReadInLoop => exact Or.inr (Or.inl rfl)
      | io f =>
          cases f with
          | connectEstablished | connectDestroyed => exact absurd rfl hholds
          | other => exact Or.inr (Or.inr rfl)
          | own f =>
              have hbare := htrails.drained hdestroyed _ (hqueued (by simp))
              cases f with
              | forceCloseInLoop => exact absurd rfl hholds
              | sendInLoop | shutdownInLoop => cases hbare

/-- The peer hangs up, and the connection is closed, destroyed and removed. -/
theorem hung_up_run : ∃ w : IoLoop Unit,
    Run (Guarded (Step fun _ => true) (OwnedUnder () (Connection.Orderly ()))) (new fun _ => 7)
      [.member () (.server .newConnection),
        .member () (.server (.frame (.data []) (.wrote 0))),
        .poll 16 [⟨⟨false, false, false, false, true, false, false⟩, ()⟩],
        .handleEvent,
        .member () (.server (.frame (.data []) (.wrote 0))),
        .member () (.server (.frame (.data []) (.wrote 0))),
        .member () (.server (.frame (.data []) (.wrote 0))),
        .doPendingFunctors,
        .task (.wrote 0),
        .member () (.server (.frame (.data []) (.wrote 0)))] w ∧
      (w.members ()).accepted = true ∧ (w.members ()).notices ≠ [] ∧ ¬ w.Referenced () := by
  have hquiet : ∀ n, (WriteResult.wrote 0).Within n := Nat.zero_le
  have hself : ∀ {P : Unit → Prop}, ∀ d, d ≠ () → P d := fun _ hd => absurd rfl hd
  have hheld : ∀ {w : IoLoop Unit}, w.HoldsFd () := fun _ => hself
  have hframe : ∀ {w : IoLoop Unit} {f : Frame} {rest : List Frame}
      (_ : (w.members ()).accepted = true) (_ : (w.members ()).todo = f :: rest)
      (_ : f = .close ∨ (f = .read ∧ Buffer.ReadResult.data [] = .data []) →
        (w.poller.table ()).events ≠ .noneEvent),
      w.OwnedUnder () (Connection.Orderly ())
        (.member () (.server (.frame (.data []) (.wrote 0)))) := by
    intro w f rest haccepted htodo hevents
    refine ⟨⟨haccepted, hheld⟩, ?_⟩
    rintro - ⟨⟩
    exact (Connection.orderly_frame_iff (w := w.project ()) htodo).mpr hevents
  have haccepted := guarded_then (.nil : Run (Guarded (Step fun _ => true)
      (OwnedUnder () (Connection.Orderly ()))) (new fun _ : Unit => 7) [] _)
    (.member () (.server .newConnection))
    ⟨trivial, fun _ he => by
      cases he
      exact Connection.orderly_of_none id id id⟩
    (.member ⟨hself, fun _ _ => rfl⟩
      (.server rfl (.newConnection rfl (fun _ _ h => absurd rfl h) fun _ => rfl))) rfl
  have hup := guarded_then haccepted (.member () (.server (.frame (.data []) (.wrote 0))))
    (hframe rfl rfl nofun) (.member hself (.server rfl (.frame rfl (hquiet _)))) rfl
  have hpolled := guarded_then hup
    (.poll 16 [⟨⟨false, false, false, false, true, false, false⟩, ()⟩])
    ⟨trivial, fun _ he => by
      cases he
      exact Connection.orderly_of_none id id id⟩
    (.poll rfl (fun _ => rfl)
      { fits := by decide
        once := by decide
        interested := fun _ hr => by
          obtain rfl := List.mem_singleton.mp hr
          exact ⟨7, _, rfl, ⟨nofun, nofun, rfl, rfl, rfl⟩⟩ }) rfl
  have hhandled := guarded_then hpolled .handleEvent
    ⟨trivial, fun _ he => by
      cases he
      exact Connection.orderly_of_none id id id⟩
    (.handleEvent rfl (fun _ => rfl) rfl) rfl
  have hclosed := guarded_then hhandled (.member () (.server (.frame (.data []) (.wrote 0))))
    (hframe rfl rfl fun _ => by decide) (.member hself (.server rfl (.frame rfl (hquiet _)))) rfl
  have hdown := guarded_then hclosed (.member () (.server (.frame (.data []) (.wrote 0))))
    (hframe rfl rfl nofun) (.member hself (.server rfl (.frame rfl (hquiet _)))) rfl
  have hremoved := guarded_then hdown (.member () (.server (.frame (.data []) (.wrote 0))))
    (hframe rfl rfl nofun) (.member hself (.server rfl (.frame rfl (hquiet _)))) rfl
  have hbatch := guarded_then hremoved .doPendingFunctors
    ⟨trivial, fun _ he => by
      cases he
      exact Connection.orderly_of_none id id id⟩
    (.doPendingFunctors rfl (fun _ => rfl) rfl) rfl
  have hdestroyed := guarded_then hbatch (.task (.wrote 0))
    ⟨fun _ _ => hheld, fun _ he => by
      cases he
      exact (Connection.orderly_task_iff rfl).mpr ⟨nofun, nofun, nofun⟩⟩
    (.task rfl (fun _ => rfl) rfl nofun) rfl
  have hgone := guarded_then hdestroyed (.member () (.server (.frame (.data []) (.wrote 0))))
    (hframe rfl rfl nofun) (.member hself (.server rfl (.frame rfl (hquiet _)))) rfl
  refine ⟨_, hgone, rfl, nofun, ?_⟩
  rintro (hlisted | hremovals | ⟨t, -, htask⟩ | ⟨f, hf, -⟩)
  · cases hlisted
  · exact absurd hremovals (Nat.lt_irrefl 0)
  · cases htask
  · cases hf

theorem destructors_assert_hung_up : ∃ (events : List (Event Unit)) (w : IoLoop Unit),
    Run (Guarded (Step fun _ => true) (OwnedUnder () (Connection.Orderly ())))
      (new fun _ => 7) events w ∧
      (w.members ()).conn.state = .kDisconnected ∧ (w.poller.table ()).addedToLoop = false := by
  obtain ⟨w, hrun, haccepted, -, hlast⟩ := hung_up_run
  obtain ⟨hdown, -, hadded, -⟩ := destructors_assert hrun haccepted hlast
  exact ⟨_, w, hrun, hdown, hadded⟩

/-- A thread stops reading from a connection that is gone but for its pointer. -/
theorem last_call_stopRead : ∃ (events : List (Event Unit)) (w : IoLoop Unit),
    Run (Guarded (Step fun _ => true) (OwnedUnder () (Connection.Orderly ())))
      (new fun _ => 7) events w ∧
      ¬ w.Referenced () ∧ ((), .stopReadInLoop) ∈ w.tasks ++ w.pendingTasks ∧
      ∀ x ∈ w.remaining, x.1 ≠ () := by
  obtain ⟨w, hrun, haccepted, hnotices, hlast⟩ := hung_up_run
  have hcalled := guarded_then hrun (.member () (.stopRead false))
    ⟨⟨haccepted, fun _ d hd => absurd rfl hd⟩, fun _ he => by
      cases he
      exact Connection.orderly_of_none id nofun id⟩
    (.member nofun (.stopRead hnotices nofun)) rfl
  have htasks : (w.put () ((w.view ()).queueInLoop .stopReadInLoop)).tasks ++
      (w.put () ((w.view ()).queueInLoop .stopReadInLoop)).pendingTasks =
      w.tasks ++ w.pendingTasks ++ [((), .stopReadInLoop)] := by
    simp [put, view, Connection.queueInLoop]
  have hlast' : ¬ (w.put () ((w.view ()).queueInLoop .stopReadInLoop)).Referenced () := by
    rintro (hlisted | hremovals | ⟨t, ht, htask⟩ | htodo)
    · exact hlast (Or.inl hlisted)
    · exact hlast (Or.inr (Or.inl hremovals))
    · rw [htasks, List.mem_append, List.mem_singleton] at htask
      rcases htask with hold | hnew
      · exact hlast (Or.inr (Or.inr (Or.inl ⟨t, ht, hold⟩)))
      · cases hnew
        cases ht
    · exact hlast (Or.inr (Or.inr (Or.inr htodo)))
  refine ⟨_, _, hcalled, hlast', ?_, (last_call hcalled haccepted hlast').1⟩
  rw [htasks]
  exact List.mem_append_right _ (List.mem_singleton.mpr rfl)

end IoLoop
end ProtoRpc
