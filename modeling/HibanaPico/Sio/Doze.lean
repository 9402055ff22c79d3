import HibanaPico.Sio.Types
import HibanaPico.Support.Doze

/-!
# Sio — Doze

The two cores of an embedded image over a SIO carrier.  Each polls its role tasks, in
`poll_forever` or, with a WASI engine, in `run_canonical_wasi_engine_forever`, and waits for an
event after a pass without a wake-up.

* `SioMemory`, `SioCall`, `SioReply`: the ports of each core, and the calls of a task.
* `AtRecv`: a task is at a `poll_recv`.
* `SleepsRight`, `sleepsRight_exec`: what is true of a core that sleeps, if the carrier heeds.
* `tellingCores`: a task that sends, and an engine that receives.
-/

namespace HibanaPico.Sio
open HibanaPico.Support
open HibanaPico.Transport

/-! ### The calls of a task -/

/-- The statics of a carrier, and the ports of each core. -/
structure SioMemory (σ τ : Type*) where
  st : σ
  txs : Core → ℕ → Option τ
  rxs : Core → ℕ → Option SioRx

def SioMemory.init {σ τ : Type*} (st : σ) : SioMemory σ τ :=
  { st, txs := fun _ _ => none, rxs := fun _ _ => none }

/-- A call of a task on a port of its core.  Ports are opened without a deadline, as
`SIO_OPERATIONAL_DEADLINE_TICKS` has it where a capsule does not set it. -/
inductive SioCall where
  | open (port : ℕ) (as : PortOpen) (txSessionXor : U32)
  | pollSend (port : ℕ) (outgoing : Outgoing)
  | cancelSend (port : ℕ)
  | pollRecv (port : ℕ)
  | requeue (port : ℕ)

inductive SioReply where
  | opened
  | sent (answer : Except TransportError Unit)
  | cancelled
  | received (answer : Except TransportError ReceivedFrame)
  | requeued

/-- A port of a core is set. -/
def setPort {β : Type*} (ports : Core → ℕ → Option β) (core : Core) (port : ℕ) (v : β) :
    Core → ℕ → Option β :=
  Function.update ports core (Function.update (ports core) port (some v))

/-- What a part of a `poll_recv` comes to. -/
def phasePart : RecvPhase → CallPart SioReply
  | .answer .pending => .pending
  | .answer (.ready answer) => .answered (.received answer)
  | .scan | .await => .goesOn

/-- The first part of a `poll_recv` is pending where it puts back a frame of another lane. -/
def recvPutsBack : RecvPhase → Bool
  | .answer .pending => true
  | .answer (.ready _) | .scan | .await => false

/-! ### The ports -/

theorem setPort_eq {β : Type*} (ports : Core → ℕ → Option β) (core c : Core) (port p : ℕ) (v : β) :
    setPort ports core port v c p = if c = core ∧ p = port then some v else ports c p := by
  unfold setPort
  by_cases hc : c = core
  · subst hc
    rw [Function.update_self]
    by_cases hp : p = port
    · rw [hp, Function.update_self, if_pos ⟨rfl, rfl⟩]
    · rw [Function.update_of_ne hp, if_neg fun h => hp h.2]
  · rw [Function.update_of_ne hc, if_neg fun h => hc h.1]

/-- What stays of an Rx. -/
structure SameRx (rx rx' : SioRx) : Prop where
  localRole : rx'.localRole = rx.localRole
  coreId : rx'.coreId = rx.coreId
  ticks : rx'.operationalDeadlineTicks = rx.operationalDeadlineTicks

theorem SameRx.refl (rx : SioRx) : SameRx rx rx := ⟨rfl, rfl, rfl⟩

theorem sameRx_forgetDelivered (rx : SioRx) : SameRx rx (forgetDelivered rx) := by
  unfold forgetDelivered
  split
  · exact ⟨rfl, rfl, rfl⟩
  · exact .refl rx

section Ports

variable {σ τ : Type*} {m m' : SioMemory σ τ} {core : Core} {port : ℕ} {rx rx' : SioRx}

/-- Every Rx is of the core that opened it, and has no deadline. -/
def SioOk (m : SioMemory σ τ) : Prop :=
  ∀ core port rx, m.rxs core port = some rx → rx.coreId = core ∧ rx.operationalDeadlineTicks = 0

theorem sioOk_init (st : σ) : SioOk (.init st : SioMemory σ τ) := fun _ _ _ h => by cases h

theorem SioOk.setPort (hok : SioOk m) (hrxs : m'.rxs = setPort m.rxs core port rx)
    (hcore : rx.coreId = core) (hticks : rx.operationalDeadlineTicks = 0) : SioOk m' := by
  intro c p r h
  rw [hrxs, setPort_eq] at h
  split at h
  · rename_i heq
    obtain rfl := Option.some.inj h
    exact ⟨hcore.trans heq.1.symm, hticks⟩
  · exact hok c p r h

/-- Ports stay open, and their roles stay. -/
def KeepsPorts (m m' : SioMemory σ τ) : Prop :=
  ∀ core port rx, m.rxs core port = some rx →
    ∃ rx', m'.rxs core port = some rx' ∧ rx'.localRole = rx.localRole

theorem keepsPorts_of_rxs (h : m'.rxs = m.rxs) : KeepsPorts m m' :=
  fun _ _ rx hrx => ⟨rx, h ▸ hrx, rfl⟩

/-- An Rx is set to one of the same role. -/
theorem keepsPorts_setPort (hrx : m.rxs core port = some rx)
    (hrxs : m'.rxs = setPort m.rxs core port rx') (hsame : rx'.localRole = rx.localRole) :
    KeepsPorts m m' := by
  intro c p r h
  rw [hrxs, setPort_eq]
  split
  · rename_i heq
    obtain ⟨rfl, rfl⟩ := heq
    obtain rfl := Option.some.inj (hrx.symm.trans h)
    exact ⟨rx', rfl, hsame⟩
  · exact ⟨r, h, rfl⟩

/-- A port is opened that was not. -/
theorem keepsPorts_open (hnone : (m.rxs core port).isNone)
    (hrxs : m'.rxs = setPort m.rxs core port rx) : KeepsPorts m m' := by
  intro c p r h
  refine ⟨r, ?_, rfl⟩
  rw [hrxs, setPort_eq, if_neg]
  · exact h
  · rintro ⟨rfl, rfl⟩
    rw [h] at hnone
    cases hnone

/-- The call is a `poll_recv` of a port of a role with the property. -/
def AtRecv (core : Core) (m : SioMemory σ τ) (k : SioCall) (P : U8 → Prop) : Prop :=
  ∃ port rx, k = .pollRecv port ∧ m.rxs core port = some rx ∧ P rx.localRole

theorem AtRecv.imp {k : SioCall} {P Q : U8 → Prop} (h : AtRecv core m k P)
    (hports : KeepsPorts m m') (himp : ∀ role, P role → Q role) : AtRecv core m' k Q := by
  obtain ⟨port, rx, rfl, hrx, hP⟩ := h
  obtain ⟨rx', hrx', hrole⟩ := hports core port rx hrx
  exact ⟨port, rx', rfl, hrx', hrole ▸ himp _ hP⟩

end Ports

/-! ### A core that sleeps -/

section Sleeps

variable {σ τ : Type*} (C : Calls Core (SioMemory σ τ) SioCall SioReply)
  (E : Core → Executive SioCall SioReply) (Empty : σ → Core → U8 → Prop)

/-- What is true of a core that sleeps, where `Empty` is that nothing waits for a role on a core. -/
structure SleepsRight (s : Dozing Core (SioMemory σ τ) SioReply) (core : Core) : Prop where
  /-- With no event to come, each of its tasks is at a `poll_recv`, and nothing waits for it. -/
  rests : (s.cpus core).event = false → (s.cpus core.peer).due = false →
    ∀ task < (E core).parties.length, ∃ port rx, s.Next E core task (.pollRecv port) ∧
      s.memory.rxs core port = some rx ∧ Empty s.memory.st core rx.localRole
  /-- An event, or a `sev` that the other core is about to do, begins another pass. -/
  wakes : (s.cpus core).event = true ∨ (s.cpus core.peer).due = true →
    ∃ as t, as.length ≤ 2 ∧ (dozingMachine C E).exec s as = some t ∧
      t.memory = s.memory ∧ (t.cpus core).stands = .polling ∧ (t.cpus core).idx = 0

variable {C E Empty} {Ok : SioMemory σ τ → Prop} {Within : Core → SioMemory σ τ → SioCall → Prop}

/-- A carrier that heeds loses no wake-up between the cores. -/
theorem sleepsRight_exec
    (heeds : Heeds C Ok Within fun core m k => AtRecv core m k (Empty m.st core)) {st : σ}
    (hok : Ok (.init st)) {as : List (DozingAction Core)}
    {s : Dozing Core (SioMemory σ τ) SioReply}
    (h : (dozingMachine C E).exec (.init E (.init st)) as = some s) {core : Core}
    (hasleep : (s.cpus core).stands = .asleep) : SleepsRight C E Empty s core := by
  obtain ⟨-, hvigil⟩ := vigil_exec heeds _ hok h
  refine ⟨fun hevent hdue task htask => ?_, fun hflag => ?_⟩
  · obtain ⟨call, hcall, hflag⟩ := (hvigil core).asleep_rests hasleep htask
    rcases hflag with he | ⟨c, hne, hd⟩ | ⟨port, rx, rfl, hrx, hempty⟩
    · cases hevent.symm.trans he
    · obtain rfl := Core.eq_peer_of_ne hne
      cases hdue.symm.trans hd
    · exact ⟨port, rx, hcall, hrx, hempty⟩
  · exact (hvigil core).wakes_up hasleep (hflag.imp id fun hd => ⟨core.peer, core.peer_ne, hd⟩)

end Sleeps

/-! ### Two tasks -/

/-- Role 0 sends to role 1, and receives. -/
def tellsEngine : List SioReply → Option SioCall
  | [] => some (.open 0 { localRole := 0, sessionId := 7, lane := 0 } 0)
  | [_] => some (.pollSend 0 { targetRole := 1, frameLabel := 5, lane := 0, payload := [9] })
  | _ :: _ :: _ => some (.pollRecv 0)

/-- Role 1, an engine, receives. -/
def engineListens : List SioReply → Option SioCall
  | [] => some (.open 0 { localRole := 1, sessionId := 7, lane := 0 } 0)
  | _ :: _ => some (.pollRecv 0)

def tellingCores : Core → Executive SioCall SioReply
  | .core0 => { parties := [tellsEngine], engine := none }
  | .core1 => { parties := [engineListens], engine := some fun _ => true }

end HibanaPico.Sio
