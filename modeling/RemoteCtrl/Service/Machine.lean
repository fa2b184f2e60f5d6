import RemoteCtrl.Service.Listen
import Mathlib.Logic.Function.Basic

/-!
# The services of a machine

Any number of processes open and close the service and end, and strangers take and give back ports. Their calls come
in any order, and each may fail. A service thread ends with the processes it has forked. A socket with SO_REUSEADDR can
be bound to a port on which nobody listens, and only one socket listens on a port; a port for datagrams has one holder.
`Start` does not look whether a service thread of the process still runs, and a thread that is cancelled runs on for a
while. If the service is opened then, two threads share `_listenfd`, `_broadcastfd` and `_port`; what comes of that is
left open, and the results about such processes ask that it does not happen.
-/

namespace RemoteCtrl.Machine

open CProgram.Transition

/-! ### States -/

inductive Holder
  | service (p : Nat)
  | stranger
  deriving DecidableEq, Repr

/-- The call of `InitSocket` a process makes next, if it has one service thread. -/
inductive Pc
  | idle
  | socket
  | reuse
  | bind
  | listen
  | broadcastSocket
  | broadcastBind
  | membership
  | looping
  /-- The service has been opened while a service thread ran. -/
  | overlapping
  | ended
  deriving DecidableEq, Repr

/-- `port` is `_port` and `bound` the port of `_listenfd`, in each process; `succeeded` is a record of the starts that
have come to `LoopSocket`. -/
structure State where
  pc : Nat → Pc
  port : Nat → Nat
  bound : Nat → Nat
  listening : Nat → Option Holder
  broadcast : Option Holder
  succeeded : List Nat

def start : State where
  pc _ := .idle
  port _ := serviceBasePort
  bound _ := 0
  listening _ := none
  broadcast := none
  succeeded := []

/-! ### Steps -/

/-- What can come of two service threads that share the globals, one thing at a time. -/
inductive Effect
  | listen (q : Nat)
  | unlisten (q : Nat)
  | bindBroadcast
  | closeBroadcast
  | comeThrough
  | setGlobals (port bound : Nat)
  deriving DecidableEq, Repr

inductive Event
  /-- `RemoteCtrlServiceOpen`, and the thread it creates. Nobody looks whether another one runs. -/
  | serviceOpen (p : Nat)
  /-- The next call of `InitSocket`, and whether it succeeds. Asked for port 0, `bind` takes `ephemeral`. -/
  | call (p : Nat) (ok : Bool) (ephemeral : Nat)
  /-- `LoopSocket` returns. -/
  | leave (p : Nat)
  /-- The thread that `RemoteCtrlServiceClose` has cancelled ends, wherever it is. -/
  | serviceClose (p : Nat)
  | overlapped (p : Nat) (effect : Effect)
  | exit (p : Nat)
  /-- A stranger listens on a port. -/
  | takePort (q : Nat)
  | givePort (q : Nat)
  | takeBroadcast
  | giveBroadcast
  deriving DecidableEq, Repr

def State.goto (s : State) (p : Nat) (pc : Pc) : State := { s with pc := Function.update s.pc p pc }

def State.call (s : State) (p : Nat) (ok : Bool) (ephemeral : Nat) : Option State :=
  match s.pc p with
  | .socket => some (s.goto p (if ok then .reuse else .idle))
  | .reuse => some (s.goto p (if ok then .bind else .idle))
  | .bind =>
      if ok then
        let q := boundPort ephemeral (s.port p)
        if s.listening q = none then some { s.goto p .listen with bound := Function.update s.bound p q } else none
      else
        let next := nextPort (s.port p)
        some { s.goto p (if next > lastPort then .idle else .bind) with port := Function.update s.port p next }
  | .listen =>
      if ok then
        if s.listening (s.bound p) = none then
          some { s.goto p .broadcastSocket with
            listening := Function.update s.listening (s.bound p) (some (.service p)) }
        else none
      else some (s.goto p .idle)
  | .broadcastSocket => some (s.goto p (if ok then .broadcastBind else .idle))
  | .broadcastBind =>
      if ok then
        if s.broadcast = none then some { s.goto p .membership with broadcast := some (.service p) } else none
      else some (s.goto p .idle)
  | .membership =>
      if ok then some { s.goto p .looping with succeeded := s.succeeded ++ [p] } else some (s.goto p .idle)
  | _ => none

/-- What is left when a holder gives back what it has. -/
def dropHolder (holder : Holder) (held : Option Holder) : Option Holder := if held = some holder then none else held

def State.overlapped (s : State) (p : Nat) : Effect → Option State
  | .listen q =>
      if s.listening q = none then
        some { s with listening := Function.update s.listening q (some (.service p)) } else none
  | .unlisten q => some { s with listening := Function.update s.listening q (dropHolder (.service p) (s.listening q)) }
  | .bindBroadcast => if s.broadcast = none then some { s with broadcast := some (.service p) } else none
  | .closeBroadcast => some { s with broadcast := dropHolder (.service p) s.broadcast }
  | .comeThrough => some { s with succeeded := s.succeeded ++ [p] }
  | .setGlobals port bound =>
      if port < 2 ^ 32 then
        some { s with port := Function.update s.port p port, bound := Function.update s.bound p bound } else none

/-- Once two threads have overlapped the process does what it likes until it ends. -/
def step (s : State) : Event → Option State
  | .serviceOpen p =>
      if s.pc p = .ended then none else some (s.goto p (if s.pc p = .idle then .socket else .overlapping))
  | .call p ok ephemeral => s.call p ok ephemeral
  | .leave p => if s.pc p = .looping then some (s.goto p .idle) else none
  | .serviceClose p => if s.pc p ∈ [.idle, .overlapping, .ended] then none else some (s.goto p .idle)
  | .overlapped p effect => if s.pc p = .overlapping then s.overlapped p effect else none
  | .exit p =>
      if s.pc p = .ended then none
      else some { s.goto p .ended with
        listening := fun q => dropHolder (.service p) (s.listening q)
        broadcast := dropHolder (.service p) s.broadcast }
  | .takePort q =>
      if s.listening q = none then some { s with listening := Function.update s.listening q (some .stranger) } else none
  | .givePort q => some { s with listening := Function.update s.listening q (dropHolder .stranger (s.listening q)) }
  | .takeBroadcast => if s.broadcast = none then some { s with broadcast := some .stranger } else none
  | .giveBroadcast => some { s with broadcast := dropHolder .stranger s.broadcast }

/-- What a call makes of the state. -/
inductive Made (s : State) (p ephemeral : Nat) : Bool → State → Prop
  | fails (hpc : s.pc p ∉ [.idle, .bind, .looping, .overlapping, .ended]) : Made s p ephemeral false (s.goto p .idle)
  | socket (hpc : s.pc p = .socket) : Made s p ephemeral true (s.goto p .reuse)
  | reuse (hpc : s.pc p = .reuse) : Made s p ephemeral true (s.goto p .bind)
  | bindFails (hpc : s.pc p = .bind) :
      Made s p ephemeral false
        { s.goto p (if nextPort (s.port p) > lastPort then .idle else .bind) with
          port := Function.update s.port p (nextPort (s.port p)) }
  | binds (hpc : s.pc p = .bind) (hfree : s.listening (boundPort ephemeral (s.port p)) = none) :
      Made s p ephemeral true
        { s.goto p .listen with bound := Function.update s.bound p (boundPort ephemeral (s.port p)) }
  | listens (hpc : s.pc p = .listen) (hfree : s.listening (s.bound p) = none) :
      Made s p ephemeral true
        { s.goto p .broadcastSocket with
          listening := Function.update s.listening (s.bound p) (some (.service p)) }
  | broadcastSocket (hpc : s.pc p = .broadcastSocket) : Made s p ephemeral true (s.goto p .broadcastBind)
  | broadcastBinds (hpc : s.pc p = .broadcastBind) (hfree : s.broadcast = none) :
      Made s p ephemeral true { s.goto p .membership with broadcast := some (.service p) }
  | succeeds (hpc : s.pc p = .membership) :
      Made s p ephemeral true { s.goto p .looping with succeeded := s.succeeded ++ [p] }

theorem made_of_call {s t : State} {p ephemeral : Nat} {ok : Bool} (hstep : s.call p ok ephemeral = some t) :
    Made s p ephemeral ok t := by
  rw [State.call] at hstep
  cases ok with
  | false =>
      cases hpc : s.pc p with
      | bind =>
          rw [hpc] at hstep
          obtain rfl := Option.some.inj hstep
          exact .bindFails hpc
      | idle | looping | overlapping | ended =>
          rw [hpc] at hstep
          contradiction
      | _ =>
          rw [hpc] at hstep
          obtain rfl := Option.some.inj hstep
          exact .fails (by simp [hpc])
  | true =>
      cases hpc : s.pc p with
      | socket =>
          rw [hpc] at hstep
          obtain rfl := Option.some.inj hstep
          exact .socket hpc
      | reuse =>
          rw [hpc] at hstep
          obtain rfl := Option.some.inj hstep
          exact .reuse hpc
      | bind =>
          rw [hpc] at hstep
          obtain ⟨hfree, ht⟩ := Option.ite_none_right_eq_some.mp hstep
          obtain rfl := Option.some.inj ht
          exact .binds hpc hfree
      | listen =>
          rw [hpc] at hstep
          obtain ⟨hfree, ht⟩ := Option.ite_none_right_eq_some.mp hstep
          obtain rfl := Option.some.inj ht
          exact .listens hpc hfree
      | broadcastSocket =>
          rw [hpc] at hstep
          obtain rfl := Option.some.inj hstep
          exact .broadcastSocket hpc
      | broadcastBind =>
          rw [hpc] at hstep
          obtain ⟨hfree, ht⟩ := Option.ite_none_right_eq_some.mp hstep
          obtain rfl := Option.some.inj ht
          exact .broadcastBinds hpc hfree
      | membership =>
          rw [hpc] at hstep
          obtain rfl := Option.some.inj hstep
          exact .succeeds hpc
      | idle | looping | overlapping | ended =>
          rw [hpc] at hstep
          contradiction

theorem call_of_made {s t : State} {p ephemeral : Nat} {ok : Bool} (hmade : Made s p ephemeral ok t) :
    s.call p ok ephemeral = some t := by
  rw [State.call]
  cases hmade with
  | fails hpc =>
      cases hcall : s.pc p with
      | idle | bind | looping | overlapping | ended => exact absurd (by simp [hcall]) hpc
      | _ => rfl
  | binds hpc hfree | listens hpc hfree | broadcastBinds hpc hfree =>
      rw [hpc]
      exact if_pos hfree
  | socket hpc | reuse hpc | bindFails hpc | broadcastSocket hpc | succeeds hpc =>
      rw [hpc]
      rfl

/-- What an event makes of the state. -/
inductive Moves (s : State) : Event → State → Prop
  | serviceOpen {p : Nat} (hpc : s.pc p = .idle) : Moves s (.serviceOpen p) (s.goto p .socket)
  | overlaps {p : Nat} (hpc : s.pc p ∉ [.idle, .ended]) : Moves s (.serviceOpen p) (s.goto p .overlapping)
  | call {p ephemeral : Nat} {ok : Bool} {t : State} (hmade : Made s p ephemeral ok t) :
      Moves s (.call p ok ephemeral) t
  | leave {p : Nat} (hpc : s.pc p = .looping) : Moves s (.leave p) (s.goto p .idle)
  | serviceClose {p : Nat} (hpc : s.pc p ∉ [.idle, .overlapping, .ended]) : Moves s (.serviceClose p) (s.goto p .idle)
  | overlapped {p : Nat} {effect : Effect} {t : State} (hpc : s.pc p = .overlapping)
      (heffect : s.overlapped p effect = some t) : Moves s (.overlapped p effect) t
  | exit {p : Nat} (halive : s.pc p ≠ .ended) :
      Moves s (.exit p)
        { s.goto p .ended with
          listening := fun q => dropHolder (.service p) (s.listening q)
          broadcast := dropHolder (.service p) s.broadcast }
  | takePort {q : Nat} (hfree : s.listening q = none) :
      Moves s (.takePort q) { s with listening := Function.update s.listening q (some .stranger) }
  | givePort {q : Nat} :
      Moves s (.givePort q)
        { s with listening := Function.update s.listening q (dropHolder .stranger (s.listening q)) }
  | takeBroadcast (hfree : s.broadcast = none) : Moves s .takeBroadcast { s with broadcast := some .stranger }
  | giveBroadcast : Moves s .giveBroadcast { s with broadcast := dropHolder .stranger s.broadcast }

theorem moves_of_step {s t : State} {e : Event} (hstep : step s e = some t) : Moves s e t := by
  cases e with
  | serviceOpen p =>
      obtain ⟨halive, ht⟩ := Option.ite_none_left_eq_some.mp hstep
      obtain rfl := Option.some.inj ht
      by_cases hpc : s.pc p = .idle
      · rw [if_pos hpc]
        exact .serviceOpen hpc
      · rw [if_neg hpc]
        exact .overlaps (by simp [hpc, halive])
  | call p ok ephemeral => exact .call (made_of_call hstep)
  | leave p =>
      obtain ⟨hpc, ht⟩ := Option.ite_none_right_eq_some.mp hstep
      obtain rfl := Option.some.inj ht
      exact .leave hpc
  | serviceClose p =>
      obtain ⟨hpc, ht⟩ := Option.ite_none_left_eq_some.mp hstep
      obtain rfl := Option.some.inj ht
      exact .serviceClose hpc
  | overlapped p effect =>
      obtain ⟨hpc, ht⟩ := Option.ite_none_right_eq_some.mp hstep
      exact .overlapped hpc ht
  | exit p =>
      obtain ⟨halive, ht⟩ := Option.ite_none_left_eq_some.mp hstep
      obtain rfl := Option.some.inj ht
      exact .exit halive
  | takePort q =>
      obtain ⟨hfree, ht⟩ := Option.ite_none_right_eq_some.mp hstep
      obtain rfl := Option.some.inj ht
      exact .takePort hfree
  | givePort q =>
      obtain rfl := Option.some.inj hstep
      exact .givePort
  | takeBroadcast =>
      obtain ⟨hfree, ht⟩ := Option.ite_none_right_eq_some.mp hstep
      obtain rfl := Option.some.inj ht
      exact .takeBroadcast hfree
  | giveBroadcast =>
      obtain rfl := Option.some.inj hstep
      exact .giveBroadcast

/-! ### Other processes -/

theorem goto_self (s : State) (p : Nat) (pc : Pc) : (s.goto p pc).pc p = pc := by
  dsimp only [State.goto]
  rw [Function.update_self]

theorem goto_of_ne (s : State) {p p' : Nat} (hne : p' ≠ p) (pc : Pc) : (s.goto p pc).pc p' = s.pc p' := by
  dsimp only [State.goto]
  rw [Function.update_of_ne hne]

theorem goto_cases {s : State} {p : Nat} {pc : Pc} {motive : Nat → Pc → Prop} (hself : motive p pc)
    (hother : ∀ p', motive p' (s.pc p')) (p' : Nat) : motive p' ((s.goto p pc).pc p') := by
  by_cases hp : p' = p
  · subst hp
    rw [goto_self]
    exact hself
  · rw [goto_of_ne s hp]
    exact hother p'

/-- A call changes nothing of another process. -/
theorem Made.frame {s t : State} {p p' ephemeral : Nat} {ok : Bool} (hne : p' ≠ p) (hmade : Made s p ephemeral ok t) :
    t.pc p' = s.pc p' ∧ t.port p' = s.port p' ∧ t.bound p' = s.bound p' := by
  cases hmade with
  | bindFails hpc => exact ⟨goto_of_ne s hne _, Function.update_of_ne hne .., rfl⟩
  | binds hpc hfree => exact ⟨goto_of_ne s hne _, rfl, Function.update_of_ne hne ..⟩
  | _ => exact ⟨goto_of_ne s hne _, rfl, rfl⟩

/-- Nor do the threads of a process that overlap; and they leave no process where it was not. -/
theorem overlapped_frame {s t : State} {p : Nat} {effect : Effect} (heffect : s.overlapped p effect = some t) :
    t.pc = s.pc ∧ (∀ p', p' ≠ p → t.port p' = s.port p' ∧ t.bound p' = s.bound p') ∧
      ((∀ p', s.port p' < 2 ^ 32) → ∀ p', t.port p' < 2 ^ 32) := by
  cases effect with
  | listen q | bindBroadcast =>
      obtain ⟨-, ht⟩ := Option.ite_none_right_eq_some.mp heffect
      obtain rfl := Option.some.inj ht
      exact ⟨rfl, fun _ _ => ⟨rfl, rfl⟩, id⟩
  | unlisten q | closeBroadcast | comeThrough =>
      obtain rfl := Option.some.inj heffect
      exact ⟨rfl, fun _ _ => ⟨rfl, rfl⟩, id⟩
  | setGlobals port bound =>
      obtain ⟨hport, ht⟩ := Option.ite_none_right_eq_some.mp heffect
      obtain rfl := Option.some.inj ht
      refine ⟨rfl, fun p' hne => ⟨Function.update_of_ne hne .., Function.update_of_ne hne ..⟩, fun hlt => ?_⟩
      exact (Function.forall_update_iff s.port fun _ n => n < 2 ^ 32).mpr ⟨hport, fun p' _ => hlt p'⟩

end RemoteCtrl.Machine
