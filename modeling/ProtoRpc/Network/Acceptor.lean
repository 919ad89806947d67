import ProtoRpc.Foundation.Descriptors
import ProtoRpc.Foundation.Transition

/-!
`Acceptor` in a process whose other threads open and close descriptors at any time. Each
system call of `handleRead` is a step of its own. When the process has run out of
descriptors the acceptor gives up the one that it keeps in reserve, accepts into its
place, closes that and opens the reserve again; between these calls the number is free for
anybody.
-/
namespace ProtoRpc
open Descriptors Transition

/-- Who holds a descriptor, and what for. -/
inductive Holder (P : Type) where
  | acceptSocket
  /-- `idleFd_` on `/dev/null` -/
  | idle
  /-- `idleFd_`, accepted to be closed -/
  | refused (p : P)
  | connection (p : P)
  | other
  deriving DecidableEq, Repr

/-- Neither the acceptor nor its socket holds the descriptor. -/
def Holder.foreign {P : Type} : Holder P → Bool
  | .connection _ | .other => true
  | _ => false

/-- What became of a connection that was accepted. -/
inductive Fate where
  /-- handed to `newConnectionCallback_` -/
  | handed
  /-- closed for want of a callback -/
  | closed
  /-- closed for want of descriptors -/
  | refused
  deriving DecidableEq, Repr

/-- The next system call of `handleRead`. What was accepted is only recorded. -/
inductive AcceptorCall (P : Type) where
  | accept
  | closeConn (connfd : Nat) (p : P)
  | closeIdle
  | acceptIdle
  | closeAccepted (p : Option P)
  | openIdle
  /-- the destructor has run -/
  | gone
  deriving DecidableEq, Repr

/-- Between these calls `idleFd_` is the reserve, if it is open. -/
def AcceptorCall.reserves {P : Type} : AcceptorCall P → Bool
  | .accept | .closeConn _ _ | .closeIdle => true
  | _ => false

/-- `arrived` and `served` only record. `backlog` is the queue of the kernel. -/
structure Acceptor (P : Type) where
  fds : Table (Holder P)
  acceptSocket : Nat
  hasCallback : Bool
  listening : Bool
  idleFd : Int
  call : AcceptorCall P
  backlog : List P
  arrived : List P
  served : List (P × Fate)

/-- The errors that the code tells apart. -/
inductive AcceptErrno where
  | EMFILE
  | other (n : Nat)
  deriving DecidableEq, Repr

namespace Acceptor
variable {P : Type}

/-- As the constructor leaves it: its socket and the reserve are open, and whatever else the
process has. -/
structure Constructed (s : Acceptor P) : Prop where
  socket : s.fds.held s.acceptSocket = some .acceptSocket
  idle : ∃ fd : Nat, s.idleFd = fd ∧ s.fds.held fd = some .idle
  others : ∀ fd h, s.fds.held fd = some h → h.foreign = true ∨
    (fd = s.acceptSocket ∧ h = .acceptSocket) ∨ ((fd : Int) = s.idleFd ∧ h = .idle)
  call : s.call = .accept
  empty : s.backlog = [] ∧ s.arrived = [] ∧ s.served = []

inductive Event (P : Type) where
  | listen
  | accept (r : Except AcceptErrno Nat)
  | closeConn
  | closeIdle
  | acceptIdle (r : Except AcceptErrno Nat)
  | closeAccepted
  | openIdle (r : Except AcceptErrno Nat)
  | destroy
  /-- the kernel completes a connection -/
  | arrive (p : P)
  | otherOpens (fd : Nat)
  | otherCloses (fd : Nat)

/-- `accept(2)` and `open(2)` fail with `EMFILE` exactly when there is no descriptor left. -/
def Fails (t : Table (Holder P)) (e : AcceptErrno) : Prop := e = .EMFILE ↔ t.Full

inductive Step (s : Acceptor P) : Event P → Acceptor P → Prop where
  | listen (hcall : s.call = .accept) : Step s .listen { s with listening := true }
  | accepted {fd : Nat} {p : P} {rest : List P} (hcall : s.call = .accept)
      (hlistening : s.listening = true) (hbacklog : s.backlog = p :: rest)
      (hfree : s.fds.Free fd) :
      Step s (.accept (.ok fd)) (if s.hasCallback then
        { s with
          fds := s.fds.take fd (.connection p) hfree
          backlog := rest
          served := s.served ++ [(p, .handed)] }
      else
        { s with
          fds := s.fds.take fd (.refused p) hfree
          call := .closeConn fd p
          backlog := rest
          served := s.served ++ [(p, .closed)] })
  | closeConn {fd : Nat} {p : P} (hcall : s.call = .closeConn fd p) :
      Step s .closeConn { s with fds := s.fds.close fd, call := .accept }
  | acceptFails {e : AcceptErrno} (hcall : s.call = .accept) (hlistening : s.listening = true)
      (hfails : Fails s.fds e) :
      Step s (.accept (.error e))
        { s with call := if e = .EMFILE then .closeIdle else .accept }
  | closeIdle (hcall : s.call = .closeIdle) :
      Step s .closeIdle { s with fds := s.fds.close s.idleFd, call := .acceptIdle }
  | acceptedIdle {fd : Nat} {p : P} {rest : List P} (hcall : s.call = .acceptIdle)
      (hbacklog : s.backlog = p :: rest) (hfree : s.fds.Free fd) :
      Step s (.acceptIdle (.ok fd))
        { s with
          fds := s.fds.take fd (.refused p) hfree
          idleFd := fd
          call := .closeAccepted (some p)
          backlog := rest
          served := s.served ++ [(p, .refused)] }
  | acceptIdleFails {e : AcceptErrno} (hcall : s.call = .acceptIdle) (hfails : Fails s.fds e) :
      Step s (.acceptIdle (.error e)) { s with idleFd := -1, call := .closeAccepted none }
  | closeAccepted {p : Option P} (hcall : s.call = .closeAccepted p) :
      Step s .closeAccepted { s with fds := s.fds.close s.idleFd, call := .openIdle }
  | openedIdle {fd : Nat} (hcall : s.call = .openIdle) (hfree : s.fds.Free fd) :
      Step s (.openIdle (.ok fd))
        { s with fds := s.fds.take fd .idle hfree, idleFd := fd, call := .accept }
  | openIdleFails {e : AcceptErrno} (hcall : s.call = .openIdle) (hfails : Fails s.fds e) :
      Step s (.openIdle (.error e)) { s with idleFd := -1, call := .accept }
  | destroy (hcall : s.call = .accept) :
      Step s .destroy
        { s with
          fds := (s.fds.close s.idleFd).close s.acceptSocket
          listening := false
          call := .gone }
  | arrive {p : P} (hlistening : s.listening = true) :
      Step s (.arrive p) { s with backlog := s.backlog ++ [p], arrived := s.arrived ++ [p] }
  | otherOpens {fd : Nat} (hfree : s.fds.Free fd) :
      Step s (.otherOpens fd) { s with fds := s.fds.take fd .other hfree }
  | otherCloses {fd : Nat} {h : Holder P} (hheld : s.fds.held fd = some h)
      (hforeign : h.foreign = true) :
      Step s (.otherCloses fd) { s with fds := s.fds.close fd }

/-- The events that are calls of the acceptor. -/
def Event.own : Event P → Bool
  | .arrive _ | .otherOpens _ | .otherCloses _ => false
  | _ => true

/-- What the acceptor and its socket hold, call by call. -/
def Keeps (s : Acceptor P) (fd : Nat) : Holder P → Prop
  | .acceptSocket => s.call ≠ .gone ∧ fd = s.acceptSocket
  | .idle => s.call.reserves = true ∧ s.idleFd = fd
  | .refused p => s.call = .closeConn fd p ∨ (s.call = .closeAccepted (some p) ∧ s.idleFd = fd)
  | .connection _ | .other => False

/-- Besides its socket the acceptor holds its reserve, between two rounds as well, and what
it has accepted and has yet to close; and nothing else. -/
structure Sound (s : Acceptor P) : Prop where
  served : s.arrived = s.served.map Prod.fst ++ s.backlog
  keeps : ∀ fd k, k.foreign = false → (s.fds.held fd = some k ↔ s.Keeps fd k)
  failed : s.call = .closeAccepted none → s.idleFd = -1

variable {s s' : Acceptor P}

theorem sound_of_constructed (h : s.Constructed) : s.Sound := by
  obtain ⟨fd, hfd, hidle⟩ := h.idle
  obtain ⟨hbacklog, harrived, hserved⟩ := h.empty
  refine ⟨by rw [hbacklog, harrived, hserved]; rfl, ?_,
    fun hcall => by cases h.call.symm.trans hcall⟩
  intro e k hk
  constructor
  · intro hheld
    rcases h.others e k hheld with hforeign | ⟨rfl, rfl⟩ | ⟨he, rfl⟩
    · cases hk.symm.trans hforeign
    · exact ⟨by rw [h.call]; simp, rfl⟩
    · exact ⟨by rw [h.call]; rfl, he.symm⟩
  · intro hkeeps
    cases k with
    | acceptSocket =>
        rw [hkeeps.2]
        exact h.socket
    | idle =>
        obtain rfl : fd = e := by have := hkeeps.2; omega
        exact hidle
    | refused p =>
        rcases hkeeps with hcall | ⟨hcall, -⟩ <;> cases h.call.symm.trans hcall
    | connection p => cases hk
    | other => cases hk

/-- Whatever is taken or closed for others is nothing to the acceptor. -/
theorem Sound.elsewhere (h : s.Sound) {t : Table (Holder P)}
    (ht : ∀ fd k, k.foreign = false → (t.held fd = some k ↔ s.fds.held fd = some k)) :
    Sound { s with fds := t } where
  served := h.served
  keeps := by
    intro fd k hk
    rw [ht fd k hk, h.keeps fd k hk]
    cases k <;> rfl
  failed := h.failed

theorem foreign_take {t : Table (Holder P)} {fd : Nat} {k : Holder P} (hfree : t.Free fd)
    (hk : k.foreign = true) (e : Nat) (j : Holder P) (hj : j.foreign = false) :
    (t.take fd k hfree).held e = some j ↔ t.held e = some j := by
  constructor
  · intro hheld
    rcases Table.held_of_take hfree hheld with ⟨-, rfl⟩ | ⟨-, hheld⟩
    · cases hj.symm.trans hk
    · exact hheld
  · intro hheld
    rw [Table.take_held_of_ne hfree, hheld]
    rintro rfl
    cases hfree.2.symm.trans hheld

theorem foreign_close {t : Table (Holder P)} {fd : Nat} {k : Holder P} (hheld : t.held fd = some k)
    (hk : k.foreign = true) (e : Nat) (j : Holder P) (hj : j.foreign = false) :
    (t.close fd).held e = some j ↔ t.held e = some j := by
  constructor
  · exact fun hclosed => (Table.held_of_close hclosed).2
  · intro hj'
    rw [Table.close_held_of_ne, hj']
    intro he
    obtain rfl : e = fd := by omega
    cases hheld.symm.trans hj'
    cases hj.symm.trans hk

theorem Sound.held_close (h : s.Sound) (x : Int) {fd : Nat} {k : Holder P}
    (hk : k.foreign = false) :
    (s.fds.close x).held fd = some k ↔ (fd : Int) ≠ x ∧ s.Keeps fd k := by
  constructor
  · intro hheld
    obtain ⟨hfd, hheld⟩ := Table.held_of_close hheld
    exact ⟨hfd, (h.keeps fd k hk).mp hheld⟩
  · rintro ⟨hfd, hkeeps⟩
    rw [Table.close_held_of_ne hfd]
    exact (h.keeps fd k hk).mpr hkeeps

theorem Sound.held_take (h : s.Sound) {e fd : Nat} {j k : Holder P} (hfree : s.fds.Free e)
    (hk : k.foreign = false) :
    (s.fds.take e j hfree).held fd = some k ↔ (fd = e ∧ k = j) ∨ s.Keeps fd k := by
  constructor
  · intro hheld
    rcases Table.held_of_take hfree hheld with hnew | ⟨-, hheld⟩
    · exact Or.inl hnew
    · exact Or.inr ((h.keeps fd k hk).mp hheld)
  · rintro (⟨rfl, rfl⟩ | hkeeps)
    · exact Table.take_held_self hfree
    · have hheld := (h.keeps fd k hk).mpr hkeeps
      rw [Table.take_held_of_ne hfree, hheld]
      rintro rfl
      cases hfree.2.symm.trans hheld

/-- The socket is not what the next call closes. -/
theorem Sound.socket_ne (h : s.Sound) (hcall : s.call ≠ .gone) {fd : Nat} {k : Holder P}
    (hk : k.foreign = false) (hne : k ≠ .acceptSocket) (hkeeps : s.Keeps fd k) :
    s.acceptSocket ≠ fd := by
  rintro rfl
  have hsocket := (h.keeps _ .acceptSocket rfl).mpr ⟨hcall, rfl⟩
  cases hsocket.symm.trans ((h.keeps _ k hk).mpr hkeeps)
  exact hne rfl

theorem Sound.idle_ne (h : s.Sound) (hreserves : s.call.reserves = true) :
    (s.acceptSocket : Int) ≠ s.idleFd := by
  intro heq
  refine h.socket_ne ?_ rfl (by simp) (k := .idle) ⟨hreserves, heq.symm⟩ rfl
  intro hgone
  rw [hgone] at hreserves
  cases hreserves

theorem Sound.closeIdle (h : s.Sound) (hcall : s.call = .closeIdle) :
    Sound { s with fds := s.fds.close s.idleFd, call := .acceptIdle } := by
  have hne := h.idle_ne (by rw [hcall]; rfl)
  refine ⟨h.served, ?_, nofun⟩
  intro fd k hk
  rw [h.held_close _ hk]
  cases k <;> grind [Keeps, AcceptorCall.reserves, Holder.foreign]

theorem Sound.closeConn (h : s.Sound) {fd : Nat} {p : P} (hcall : s.call = .closeConn fd p) :
    Sound { s with fds := s.fds.close fd, call := .accept } := by
  have hkeeps : s.Keeps fd (.refused p) := Or.inl hcall
  have hsocket := h.socket_ne (by rw [hcall]; simp) rfl (by simp) hkeeps
  have hidle : s.idleFd ≠ fd := by
    intro heq
    have hidle := (h.keeps fd .idle rfl).mpr ⟨by rw [hcall]; rfl, heq⟩
    cases hidle.symm.trans ((h.keeps fd (.refused p) rfl).mpr hkeeps)
  refine ⟨h.served, ?_, nofun⟩
  intro e k hk
  rw [h.held_close _ hk]
  cases k <;> grind [Keeps, AcceptorCall.reserves, Holder.foreign]

theorem Sound.closeAccepted (h : s.Sound) {p : Option P} (hcall : s.call = .closeAccepted p) :
    Sound { s with fds := s.fds.close s.idleFd, call := .openIdle } := by
  have hsocket : (s.acceptSocket : Int) ≠ s.idleFd := by
    cases p with
    | none =>
        rw [h.failed hcall]
        omega
    | some q =>
        intro heq
        exact h.socket_ne (by rw [hcall]; simp) rfl (by simp) (k := .refused q)
          (Or.inr ⟨hcall, heq.symm⟩) rfl
  refine ⟨h.served, ?_, nofun⟩
  intro e k hk
  rw [h.held_close _ hk]
  cases k <;> grind [Keeps, AcceptorCall.reserves, Holder.foreign]

theorem Sound.step (h : s.Sound) {e : Event P} (hstep : Step s e s') : s'.Sound := by
  cases hstep with
  | listen hcall => exact ⟨h.served, h.keeps, h.failed⟩
  | accepted hcall hlistening hbacklog hfree =>
      rename_i fd p rest
      have hserved : ∀ fate, s.arrived = (s.served ++ [(p, fate)]).map Prod.fst ++ rest := by
        intro fate
        rw [h.served, hbacklog]
        simp
      split
      · refine ⟨hserved _, ?_, h.failed⟩
        intro e k hk
        rw [foreign_take hfree rfl e k hk, h.keeps e k hk]
        cases k <;> rfl
      · refine ⟨hserved _, ?_, nofun⟩
        intro e k hk
        rw [h.held_take hfree hk]
        cases k <;> grind [Keeps, AcceptorCall.reserves, Holder.foreign]
  | closeConn hcall => exact h.closeConn hcall
  | acceptFails hcall hlistening hfails =>
      refine ⟨h.served, ?_, fun hnone => by split at hnone <;> cases hnone⟩
      intro e k hk
      rw [h.keeps e k hk]
      cases k <;> grind [Keeps, AcceptorCall.reserves, Holder.foreign]
  | closeIdle hcall => exact h.closeIdle hcall
  | acceptedIdle hcall hbacklog hfree =>
      refine ⟨?_, ?_, nofun⟩
      · rw [h.served, hbacklog]
        simp
      · intro e k hk
        rw [h.held_take hfree hk]
        cases k <;> grind [Keeps, AcceptorCall.reserves, Holder.foreign]
  | acceptIdleFails hcall hfails =>
      refine ⟨h.served, ?_, fun _ => rfl⟩
      intro e k hk
      rw [h.keeps e k hk]
      cases k <;> grind [Keeps, AcceptorCall.reserves, Holder.foreign]
  | closeAccepted hcall => exact h.closeAccepted hcall
  | openedIdle hcall hfree =>
      refine ⟨h.served, ?_, nofun⟩
      intro e k hk
      rw [h.held_take hfree hk]
      cases k <;> grind [Keeps, AcceptorCall.reserves, Holder.foreign]
  | openIdleFails hcall hfails =>
      refine ⟨h.served, ?_, nofun⟩
      intro e k hk
      rw [h.keeps e k hk]
      cases k <;> grind [Keeps, AcceptorCall.reserves, Holder.foreign]
  | destroy hcall =>
      refine ⟨h.served, ?_, nofun⟩
      intro e k hk
      have hclosed : ((s.fds.close s.idleFd).close s.acceptSocket).held e = some k →
          (e : Int) ≠ s.acceptSocket ∧ (e : Int) ≠ s.idleFd ∧ s.Keeps e k := by
        intro hheld
        obtain ⟨hsocket, hheld⟩ := Table.held_of_close hheld
        exact ⟨hsocket, (h.held_close _ hk).mp hheld⟩
      cases k <;> grind [Keeps, AcceptorCall.reserves, Holder.foreign]
  | arrive hlistening =>
      refine ⟨?_, h.keeps, h.failed⟩
      rw [h.served, List.append_assoc]
  | otherOpens hfree => exact h.elsewhere (foreign_take hfree rfl)
  | otherCloses hheld hforeign => exact h.elsewhere (foreign_close hheld hforeign)

/-- A call of the acceptor leaves every descriptor that it does not hold. -/
theorem Sound.spares (h : s.Sound) {e : Event P} (hown : e.own = true) (hstep : Step s e s')
    {fd : Nat} {k : Holder P} (hk : k.foreign = true) (hheld : s.fds.held fd = some k) :
    s'.fds.held fd = some k := by
  have hclose : ∀ (x : Int), (∀ n : Nat, x = n → ∃ j : Holder P, j.foreign = false ∧ s.Keeps n j) →
      (s.fds.close x).held fd = some k := by
    intro x hx
    rw [Table.close_held_of_ne, hheld]
    intro heq
    obtain ⟨j, hj, hkeeps⟩ := hx fd heq.symm
    cases hheld.symm.trans ((h.keeps fd j hj).mpr hkeeps)
    cases hj.symm.trans hk
  have htake : ∀ n j (hfree : s.fds.Free n), (s.fds.take n j hfree).held fd = some k := by
    intro n j hfree
    rw [Table.take_held_of_ne hfree, hheld]
    rintro rfl
    cases hfree.2.symm.trans hheld
  cases hstep with
  | listen | acceptFails | acceptIdleFails | openIdleFails => exact hheld
  | accepted _ _ _ hfree =>
      split
      · exact htake _ _ hfree
      · exact htake _ _ hfree
  | closeConn hcall =>
      refine hclose _ ?_
      intro n hn
      obtain rfl := Int.ofNat.inj hn
      exact ⟨.refused _, rfl, Or.inl hcall⟩
  | closeIdle hcall =>
      exact hclose _ fun n hn => ⟨.idle, rfl, by rw [hcall]; rfl, hn⟩
  | acceptedIdle _ _ hfree => exact htake _ _ hfree
  | closeAccepted hcall =>
      rename_i p
      refine hclose _ ?_
      intro n hn
      cases p with
      | none =>
          rw [h.failed hcall] at hn
          omega
      | some p => exact ⟨.refused p, rfl, Or.inr ⟨hcall, hn⟩⟩
  | openedIdle _ hfree => exact htake _ _ hfree
  | destroy hcall =>
      have hidle := hclose s.idleFd fun n hn => ⟨.idle, rfl, by rw [hcall]; rfl, hn⟩
      have hsocket := hclose s.acceptSocket fun n hn =>
        ⟨.acceptSocket, rfl, by rw [hcall]; simp, (Int.ofNat.inj hn).symm⟩
      have hne : (fd : Int) ≠ s.acceptSocket := by
        intro heq
        rw [← heq, Table.close_held_self] at hsocket
        cases hsocket
      exact (Table.close_held_of_ne hne).trans hidle
  | arrive | otherOpens | otherCloses => cases hown

/-- The connections that have come are in the order in which they came first those that were
accepted, each handed on or closed, and then those that wait; no call of the acceptor closes a
descriptor of another; and besides its socket the acceptor holds its reserve, between two
rounds as well, and what it has accepted and has yet to close, and nothing else. -/
theorem acceptor_sound {s₀ : Acceptor P} (hnew : s₀.Constructed) {events : List (Event P)}
    (hrun : Run Step s₀ events s) :
    s.arrived = s.served.map Prod.fst ++ s.backlog ∧
      (∀ e s', e.own = true → Step s e s' → ∀ fd k, k.foreign = true →
        s.fds.held fd = some k → s'.fds.held fd = some k) ∧
      ∀ fd k, s.fds.held fd = some k → k.foreign = true ∨ s.Keeps fd k := by
  have h := hrun.invariant (I := Sound) (sound_of_constructed hnew) fun _ _ _ h => h.step
  refine ⟨h.served, fun e s' hown hstep fd k => h.spares hown hstep, ?_⟩
  intro fd k hheld
  cases hk : k.foreign with
  | true => exact Or.inl rfl
  | false => exact Or.inr ((h.keeps fd k hk).mp hheld)

/-- The rest of one `handleRead`, with nobody opening a descriptor meanwhile, and no call
failing for another reason than that there is nothing left. -/
def Quiet (s : Acceptor P) : Event P → Prop
  | .otherOpens _ | .accept _ => False
  | .acceptIdle (.error e) => e = .EMFILE ∨ s.backlog = []
  | .openIdle (.error e) => e = .EMFILE
  | _ => True

/-- The acceptor of a process that may have two descriptors. -/
def crowded : Acceptor Nat :=
  { fds :=
      { limit := 2
        held := fun fd => match fd with
          | 0 => some .acceptSocket
          | 1 => some .idle
          | _ => none
        below := by
          intro fd h hheld
          split at hheld <;> first | decide | cases hheld }
    acceptSocket := 0
    hasCallback := true
    listening := false
    idleFd := 1
    call := .accept
    backlog := []
    arrived := []
    served := [] }

theorem crowded_constructed : crowded.Constructed where
  socket := rfl
  idle := ⟨1, rfl, rfl⟩
  others := by
    intro fd h hheld
    match fd, hheld with
    | 0, hheld => exact Or.inr (Or.inl ⟨rfl, (Option.some.inj hheld).symm⟩)
    | 1, hheld => exact Or.inr (Or.inr ⟨rfl, (Option.some.inj hheld).symm⟩)
  call := rfl
  empty := ⟨rfl, rfl, rfl⟩

theorem crowded_full : crowded.fds.Full := by
  rintro fd ⟨hlimit, hfree⟩
  match fd, hlimit, hfree with
  | 0, _, hfree => cases hfree
  | 1, _, hfree => cases hfree

/-- One descriptor too few: a connection waits, and the process has no descriptor left. -/
theorem crowded_run : Run Step crowded [.listen, .arrive 5]
    { crowded with listening := true, backlog := [5], arrived := [5] } :=
  (Run.nil.snoc (.listen rfl)).snoc (.arrive rfl)

theorem crowded_fails :
    Step { crowded with listening := true, backlog := [5], arrived := [5] }
      (.accept (.error .EMFILE))
      { crowded with listening := true, backlog := [5], arrived := [5], call := .closeIdle } :=
  .acceptFails (e := .EMFILE) rfl rfl ⟨fun _ => crowded_full, fun _ => rfl⟩

/-- The round with all that it does: the reserve is given up, the connection is accepted in
its place and closed, and the reserve is opened again. -/
theorem crowded_round : ∃ s : Acceptor Nat, Run (Guarded Step Quiet)
      { crowded with listening := true, backlog := [5], arrived := [5], call := .closeIdle }
      [.closeIdle, .acceptIdle (.ok 1), .closeAccepted, .openIdle (.ok 1)] s ∧
    s.call = .accept ∧ s.backlog = [] ∧ s.idleFd = 1 ∧ s.fds.held 1 = some .idle := by
  have hnil : Run (Guarded Step Quiet)
      { crowded with listening := true, backlog := [5], arrived := [5], call := .closeIdle } [] _ :=
    Run.nil
  have hquiet : ∀ {s s' : Acceptor Nat} {e}, Step s e s' → Quiet s e → Guarded Step Quiet s e s' :=
    fun hstep hquiet => ⟨hquiet, hstep⟩
  have hclosed := hnil.snoc (hquiet (.closeIdle rfl) trivial)
  have haccepted := hclosed.snoc
    (hquiet (@Step.acceptedIdle _ _ 1 _ _ rfl rfl ⟨by decide, rfl⟩) trivial)
  have hrefused := haccepted.snoc (hquiet (.closeAccepted rfl) trivial)
  have hopened := hrefused.snoc (hquiet (@Step.openedIdle _ _ 1 rfl ⟨by decide, rfl⟩) trivial)
  exact ⟨_, hopened, rfl, rfl, rfl, rfl⟩

/-- The process is full: the connection that waits is refused, and the reserve is back. -/
theorem acceptor_sound_crowded : ∃ (events : List (Event Nat)) (s : Acceptor Nat),
    Run Step crowded events s ∧ events.length = 7 ∧
    s.arrived = s.served.map Prod.fst ++ s.backlog ∧ s.backlog = [] ∧
    (∀ e s', e.own = true → Step s e s' → ∀ fd k, k.foreign = true →
      s.fds.held fd = some k → s'.fds.held fd = some k) ∧
    s.fds.held 1 = some .idle ∧ s.Keeps 1 .idle := by
  obtain ⟨s, hround, hcall, hbacklog, hidle, hheld⟩ := crowded_round
  have hrun := (crowded_run.snoc crowded_fails).append hround.unguarded
  obtain ⟨harrived, hspares, hkeeps⟩ := acceptor_sound crowded_constructed hrun
  exact ⟨_, s, hrun, rfl, harrived, hbacklog, hspares, hheld, (hkeeps 1 .idle hheld).resolve_left
    (by simp [Holder.foreign])⟩

/-- Where a round stands that has found `p` at the head of the queue and the reserve open. -/
structure Round (p : P) (rest : List P) (served : List (P × Fate)) (s : Acceptor P) : Prop where
  waiting : s.call = .closeIdle ∨ s.call = .acceptIdle → s.served = served ∧
    ∃ more, s.backlog = p :: (rest ++ more)
  done : s.call ≠ .closeIdle → s.call ≠ .acceptIdle → s.served = served ++ [(p, .refused)] ∧
    ∃ more, s.backlog = rest ++ more
  accepted : ∀ q, s.call = .closeAccepted q → q = some p
  room : s.call = .acceptIdle ∨ s.call = .openIdle → ¬ s.fds.Full
  reserve : s.call ≠ .acceptIdle → s.call ≠ .openIdle → 0 ≤ s.idleFd
  call : s.call ≠ .gone ∧ ∀ fd q, s.call ≠ .closeConn fd q

variable {p : P} {rest : List P} {served : List (P × Fate)}

/-- An acceptor that is gone does nothing any more. -/
theorem gone_step (hgone : s.call = .gone) {e : Event P} (hstep : Step s e s') :
    s'.call = .gone ∧ s'.served = s.served := by
  cases hstep with
  | arrive | otherOpens | otherCloses => exact ⟨hgone, rfl⟩
  | listen hcall | accepted hcall | closeConn hcall | acceptFails hcall | closeIdle hcall
  | acceptedIdle hcall | acceptIdleFails hcall | closeAccepted hcall | openedIdle hcall
  | openIdleFails hcall | destroy hcall => cases hgone.symm.trans hcall

theorem Round.step (h : s.Round p rest served) (hsound : s.Sound) {e : Event P}
    (hstep : Guarded Step Quiet s e s') : s'.call = .gone ∨ s'.Round p rest served := by
  obtain ⟨hquiet, hstep⟩ := hstep
  by_cases hdestroy : e = .destroy
  · subst hdestroy
    cases hstep
    exact Or.inl rfl
  refine Or.inr ?_
  cases hstep with
  | listen hcall => exact ⟨h.waiting, h.done, h.accepted, h.room, h.reserve, h.call⟩
  | accepted | acceptFails | otherOpens => exact hquiet.elim
  | destroy => exact absurd rfl hdestroy
  | closeConn hcall => exact absurd hcall (h.call.2 _ _)
  | closeIdle hcall =>
      have hwaiting := h.waiting (Or.inl hcall)
      have hidle := h.reserve (by simp [hcall]) (by simp [hcall])
      have hheld : s.fds.held s.idleFd.toNat = some .idle :=
        (hsound.keeps _ _ rfl).mpr ⟨by rw [hcall]; rfl, by omega⟩
      have hroom := Table.not_full_of_held hheld
      rw [Int.toNat_of_nonneg hidle] at hroom
      exact ⟨fun _ => hwaiting, fun _ hnot => absurd rfl hnot, nofun, fun _ => hroom,
        fun hnot => absurd rfl hnot, by simp⟩
  | acceptedIdle hcall hbacklog hfree =>
      obtain ⟨hserved, more, hmore⟩ := h.waiting (Or.inr hcall)
      cases hbacklog.symm.trans hmore
      refine ⟨by simp, fun _ _ => ⟨by rw [hserved], more, rfl⟩, ?_, by simp,
        fun _ _ => Int.natCast_nonneg _, by simp⟩
      intro q hq
      cases hq
      rfl
  | acceptIdleFails hcall hfails =>
      obtain ⟨-, more, hmore⟩ := h.waiting (Or.inr hcall)
      rcases hquiet with hfull | hempty
      · exact absurd (hfails.mp hfull) (h.room (Or.inl hcall))
      · cases hempty.symm.trans hmore
  | closeAccepted hcall =>
      obtain rfl := h.accepted _ hcall
      have hdone := h.done (by simp [hcall]) (by simp [hcall])
      have hidle := h.reserve (by simp [hcall]) (by simp [hcall])
      have hheld : s.fds.held s.idleFd.toNat = some (.refused p) :=
        (hsound.keeps _ _ rfl).mpr (Or.inr ⟨hcall, by omega⟩)
      have hroom := Table.not_full_of_held hheld
      rw [Int.toNat_of_nonneg hidle] at hroom
      exact ⟨by simp, fun _ _ => hdone, nofun, fun _ => hroom, fun _ hnot => absurd rfl hnot,
        by simp⟩
  | openedIdle hcall hfree =>
      have hdone := h.done (by simp [hcall]) (by simp [hcall])
      exact ⟨by simp, fun _ _ => hdone, nofun, by simp, fun _ _ => Int.natCast_nonneg _, by simp⟩
  | openIdleFails hcall hfails =>
      exact absurd (hfails.mp hquiet) (h.room (Or.inr hcall))
  | arrive =>
      rename_i q hlistening
      refine ⟨?_, ?_, h.accepted, h.room, h.reserve, h.call⟩
      · intro hcall
        obtain ⟨hserved, more, hmore⟩ := h.waiting hcall
        exact ⟨hserved, more ++ [q], by simp [hmore]⟩
      · intro hclose haccept
        obtain ⟨hserved, more, hmore⟩ := h.done hclose haccept
        exact ⟨hserved, more ++ [q], by simp [hmore]⟩
  | otherCloses =>
      exact ⟨h.waiting, h.done, h.accepted, fun hcall => Table.not_full_close (h.room hcall),
        h.reserve, h.call⟩

/-- Without a reserve, and with nothing left, the acceptor serves nobody. -/
structure Starved (served : List (P × Fate)) (s : Acceptor P) : Prop where
  full : s.fds.Full
  reserve : s.idleFd = -1
  served : s.served = served
  call : ∀ fd q, s.call ≠ .closeConn fd q

/-- Nobody closes a descriptor. -/
def Clings (_ : Acceptor P) : Event P → Prop
  | .otherCloses _ => False
  | _ => True

theorem Starved.step (h : s.Starved served) {e : Event P} (hstep : Guarded Step Clings s e s') :
    (s'.call = .gone ∧ s'.served = served) ∨ s'.Starved served := by
  obtain ⟨hclings, hstep⟩ := hstep
  by_cases hdestroy : e = .destroy
  · subst hdestroy
    cases hstep
    exact Or.inl ⟨rfl, h.served⟩
  refine Or.inr ?_
  have hclosed : (s.fds.close s.idleFd).Full := by
    have hneg : s.idleFd < 0 := by rw [h.reserve]; decide
    intro fd hfree
    refine h.full fd ⟨hfree.1, ?_⟩
    rw [← Table.close_of_neg hneg]
    exact hfree.2
  cases hstep with
  | listen | arrive => exact ⟨h.full, h.reserve, h.served, h.call⟩
  | accepted _ _ _ hfree | acceptedIdle _ _ hfree | openedIdle _ hfree | otherOpens hfree =>
      exact absurd hfree (h.full _)
  | closeConn hcall => exact absurd hcall (h.call _ _)
  | acceptFails =>
      refine ⟨h.full, h.reserve, h.served, ?_⟩
      intro fd q
      dsimp only
      split <;> simp
  | closeIdle => exact ⟨hclosed, h.reserve, h.served, by simp⟩
  | acceptIdleFails => exact ⟨h.full, rfl, h.served, by simp⟩
  | closeAccepted => exact ⟨hclosed, h.reserve, h.served, by simp⟩
  | openIdleFails => exact ⟨h.full, rfl, h.served, by simp⟩
  | otherCloses => exact hclings.elim
  | destroy => exact absurd rfl hdestroy

/-- The process has no descriptor left and a connection waits. With the reserve open,
`handleRead` refuses the connection and has its reserve again, unless somebody else opens a
descriptor meanwhile or a call fails for want of something else. Without it nobody is served
until a descriptor is closed. -/
theorem exhausted {s₀ : Acceptor P} (hnew : s₀.Constructed) {events : List (Event P)}
    (hrun : Run Step s₀ events s) (hcall : s.call = .accept) (hfull : s.fds.Full)
    (hbacklog : s.backlog = p :: rest) :
    (0 ≤ s.idleFd → ∀ s₁ events' s', Step s (.accept (.error .EMFILE)) s₁ →
      Run (Guarded Step Quiet) s₁ events' s' → s'.call = .accept →
        s'.served = s.served ++ [(p, .refused)] ∧ (∃ more, s'.backlog = rest ++ more) ∧
          0 ≤ s'.idleFd) ∧
    (s.idleFd = -1 → ∀ events' s', Run (Guarded Step Clings) s events' s' →
      s'.served = s.served) := by
  have h := hrun.invariant (I := Sound) (sound_of_constructed hnew) fun _ _ _ h => h.step
  constructor
  · intro hidle s₁ events' s' hfailed hrun' hback
    have hround : s'.Sound ∧ (s'.call = .gone ∨ s'.Round p rest s.served) := by
      refine hrun'.invariant
        (I := fun s' => s'.Sound ∧ (s'.call = .gone ∨ s'.Round p rest s.served)) ?_ ?_
      · refine ⟨h.step hfailed, Or.inr ?_⟩
        cases hfailed
        exact ⟨fun _ => ⟨rfl, [], by simp [hbacklog]⟩, by simp, by simp, by simp,
          fun _ _ => hidle, by simp⟩
      · rintro s e s' ⟨hsound, hgone | hround⟩ hstep
        · exact ⟨hsound.step hstep.2, Or.inl (gone_step hgone hstep.2).1⟩
        · exact ⟨hsound.step hstep.2, hround.step hsound hstep⟩
    have hround := hround.2.resolve_left (by simp [hback])
    obtain ⟨hserved, hmore⟩ := hround.done (by simp [hback]) (by simp [hback])
    exact ⟨hserved, hmore, hround.reserve (by simp [hback]) (by simp [hback])⟩
  · intro hidle events' s' hrun'
    have hstarved : (s'.call = .gone ∧ s'.served = s.served) ∨ s'.Starved s.served := by
      refine hrun'.invariant
        (I := fun s' => (s'.call = .gone ∧ s'.served = s.served) ∨ s'.Starved s.served)
        (Or.inr ⟨hfull, hidle, rfl, by simp [hcall]⟩) ?_
      rintro t e t' (⟨hgone, hserved⟩ | hstarved) hstep
      · obtain ⟨hgone', hserved'⟩ := gone_step hgone hstep.2
        exact Or.inl ⟨hgone', hserved'.trans hserved⟩
      · exact hstarved.step hstep
    rcases hstarved with ⟨-, hserved⟩ | hstarved
    · exact hserved
    · exact hstarved.served

theorem exhausted_crowded : ∃ s s₁ s' : Acceptor Nat,
    Run Step crowded [.listen, .arrive 5] s ∧ Step s (.accept (.error .EMFILE)) s₁ ∧
      Run (Guarded Step Quiet) s₁
        [.closeIdle, .acceptIdle (.ok 1), .closeAccepted, .openIdle (.ok 1)] s' ∧
      s'.served = [(5, .refused)] ∧ 0 ≤ s'.idleFd := by
  obtain ⟨s, hround, hcall, -, -⟩ := crowded_round
  obtain ⟨hserved, -, hidle⟩ := (exhausted crowded_constructed crowded_run rfl crowded_full rfl).1
    (by decide) _ _ _ crowded_fails hround hcall
  exact ⟨_, _, s, crowded_run, crowded_fails, hround, hserved, hidle⟩

end Acceptor
end ProtoRpc
