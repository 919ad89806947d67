import ProtoRpc.Network.PollerAgreement

/-!
Channels that want no events. `updateChannel` deletes the fd of such a channel
from the kernel's list only when the index is `kAdded`; from `kNew` and from
`kDeleted` it adds the fd with an empty mask, and epoll then reports `EPOLLHUP`
and `EPOLLERR` for it. So a channel with an empty interest is quiet in exactly
those runs in which no operation leaves an empty interest empty.
-/
namespace ProtoRpc.Poller
open Transition

variable {C : Type}

/-- No channel without events can be reported. Its fd is not in the list, unless
the channel was removed and another one has the fd. -/
def Quiet (p : Poller C) : Prop :=
  ∀ c, (p.table c).events = .noneEvent →
    ((p.table c).index ≠ .kNew → p.interest (p.table c).fd = none) ∧
    (∀ mask, p.interest (p.table c).fd ≠ some (mask, c)) ∧
    ∀ capacity reports, Reports p capacity reports → ∀ r ∈ reports, r.ptr ≠ c

/-- An operation that leaves the interest of a channel empty found it not empty. -/
def Empties (p : Poller C) : Call C → Prop
  | .interest c op => op.apply (p.table c).events = .noneEvent → (p.table c).events ≠ .noneEvent
  | .remove _ => True

/-- A channel that wants events is registered for them. -/
def Wanted (p : Poller C) : Prop :=
  ∀ c, (p.table c).events ≠ .noneEvent → (p.table c).index = .kAdded

theorem quiet_iff {p : Poller C} (h : Agrees p) :
    Quiet p ↔ ∀ c, (p.table c).events = .noneEvent → (p.table c).index ≠ .kAdded := by
  constructor
  · intro hquiet c hnone hadded
    exact (hquiet c hnone).2.1 _ ((h.polled _ _ c).mpr ⟨rfl, hadded, rfl⟩)
  · intro hindex c hnone
    refine ⟨?_, ?_, ?_⟩
    · intro hregistered
      exact h.interest_of_not_added (h.sole hregistered) (hindex c hnone)
    · intro mask hinterest
      exact hindex c hnone ((h.polled _ _ c).mp hinterest).2.1
    · intro capacity reports hreports r hr hptr
      obtain ⟨fd, mask, hinterest, -⟩ := hreports.interested r hr
      obtain ⟨-, hadded, -⟩ := (h.polled _ _ _).mp hinterest
      exact hindex c hnone (hptr ▸ hadded)

variable [DecidableEq C] {p p' : Poller C} {call : Call C}

theorem become_table (p : Poller C) (c d : C) (ch : Channel) (ctls : List Ctl) :
    (p.become c ch ctls).table d = if d = c then ch else p.table d := by
  simp [Poller.become, Function.update_apply]

theorem indexAfter_eq_added (index : PollerIndex) (events : EventMask) :
    indexAfter index events = .kAdded ↔ (events = .noneEvent → index ≠ .kAdded) := by
  rw [indexAfter]
  split
  · rename_i h
    simp [h]
  · rename_i h
    simp only [true_iff]
    exact fun hevents hindex => h ⟨hindex, hevents⟩

/-- The channel of the call decides: the others stay as they were. -/
theorem Wanted.after (hwanted : Wanted p) (ctls : List Ctl)
    (hcall : (call.after p).2.events ≠ .noneEvent → (call.after p).2.index = .kAdded) :
    Wanted (p.become (call.after p).1 (call.after p).2 ctls) := by
  intro d
  rw [become_table]
  split
  · exact hcall
  · exact hwanted d

theorem Step.wanted (h : Agrees p) (hwanted : Wanted p) (hstep : Step p call p') :
    Wanted p' := by
  obtain ⟨-, ctls, rfl⟩ := hstep.become h
  refine hwanted.after ctls ?_
  cases call with
  | interest c op =>
      intro hevents
      exact (indexAfter_eq_added _ _).mpr fun hnone => absurd hnone hevents
  | remove c =>
      have hnone : (p.table c).events = .noneEvent := by
        simpa [Channel.isNoneEvent] using hstep.1.2
      exact fun hevents => absurd hnone hevents

theorem Step.quiet_iff_empties (h : Agrees p) (hwanted : Wanted p) (hquiet : Quiet p)
    (hstep : Step p call p') : Quiet p' ↔ Empties p call := by
  obtain ⟨h', ctls, rfl⟩ := hstep.become h
  rw [quiet_iff h] at hquiet
  rw [quiet_iff h']
  have hcall : (∀ d, ((p.become (call.after p).1 (call.after p).2 ctls).table d).events
        = .noneEvent →
      ((p.become (call.after p).1 (call.after p).2 ctls).table d).index ≠ .kAdded) ↔
      ((call.after p).2.events = .noneEvent → (call.after p).2.index ≠ .kAdded) := by
    constructor
    · intro hall
      simpa only [become_table, if_true] using hall (call.after p).1
    · intro hcall d
      rw [become_table]
      split
      · exact hcall
      · exact hquiet d
  rw [hcall]
  cases call with
  | interest c op =>
      simp only [Call.after, Empties, ne_eq, indexAfter_eq_added]
      constructor
      · intro hafter hnone hevents
        exact hafter hnone fun _ hadded => hquiet c hevents hadded
      · intro hempties hnone hadd
        exact hadd hnone (hwanted c (hempties hnone))
  | remove c => simp [Call.after, Empties]

/-- A channel that wants no events gets none: so it is in the runs in which
every operation that leaves an interest empty found it not empty, and in no
other. -/
theorem quiet_run_iff {fd : C → Int} {calls : List (Call C)} :
    Run (Through Step Quiet) (new fd) calls p ↔ Run (Guarded Step Empties) (new fd) calls p := by
  have hquiet : Quiet (new fd) := by
    rw [quiet_iff (agrees_new fd)]
    intro c _
    simp [new, Channel.new]
  have hwanted : Wanted (new fd) := fun c hevents => absurd rfl hevents
  refine Run.through_iff_guarded (I := fun p => Agrees p ∧ Wanted p) ⟨agrees_new fd, hwanted⟩
    hquiet ?_
  intro s l s' hI hP hstep
  exact ⟨⟨(hstep.become hI.1).1, hstep.wanted hI.1 hI.2⟩,
    hstep.quiet_iff_empties hI.1 hI.2 hP⟩

/-- A connection that was paused by `stopRead` and is then closed: `disableAll`
adds its fd again, and a later `EPOLLHUP` is reported for it. -/
theorem reported_after_disableAll : ∃ p : Poller Unit,
    Run Step (new fun _ => 5) [.interest () .enableReading, .interest () .disableReading,
      .interest () .disableAll] p ∧
    (p.table ()).events = .noneEvent ∧ p.interest 5 = some (.noneEvent, ()) ∧
    Reports p 16 [⟨⟨false, false, false, false, true, false, false⟩, ()⟩] ∧ ¬ Quiet p := by
  refine ⟨_, ((Run.nil.snoc ⟨?add, rfl⟩).snoc ⟨?pause, rfl⟩).snoc ⟨?close, rfl⟩, rfl, rfl,
    ?reports, ?loud⟩
  case add => exact fun _ _ hne => absurd rfl hne
  case pause => exact fun hnew => nomatch hnew
  case close => exact fun hnew => nomatch hnew
  case reports =>
    refine ⟨by decide, by simp, ?_⟩
    intro r hr
    obtain rfl := List.mem_singleton.mp hr
    exact ⟨5, .noneEvent, rfl, ⟨nofun, nofun, rfl, rfl, rfl⟩⟩
  case loud => exact fun hquiet => (hquiet () rfl).2.1 _ rfl

end ProtoRpc.Poller
