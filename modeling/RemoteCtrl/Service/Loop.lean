import RemoteCtrl.Service.Children
import RemoteCtrl.Foundation.Transition

/-!
# The service loop

`LoopSocket` and the parent's side of `CreateClientProcess` as a transition system. The parent stands in front
of a statement; an event is that statement with what the system makes of it, or something the parent has no
part in: a client resets its connection, a child ends, SIGCHLD is delivered, the handler takes a turn. The
handler suspends the flow it interrupts, between any two statements, and `sa_mask` keeps SIGCHLD pending
while it runs. One thread runs the loop and the handler; memory does not run out; `printf` leaves `errno`
alone.
-/

namespace RemoteCtrl.Service

open CProgram CProgram.Framing CProgram.Transition

def occupied : Bytes := ascii "error:server be occupied\n"

def occupiedHead : Nat := (occupied.length + 1) % 65536

/-! ### States -/

/-- A descriptor `accept` has returned: whether the peer has reset the connection, the child it was handed to,
the arguments of `SendResult`, the bytes sent, and the number of times the parent has closed it. -/
structure Conn where
  fd : Int
  reset : Bool := false
  child : Option Int := none
  results : List Bytes := []
  sent : Bytes := []
  closed : Nat := 0
  deriving DecidableEq, Repr

/-- The statement the parent executes next. Connections are numbered in the order of `accept`. -/
inductive Pc
  | select
  | testErrno
  | accept
  | testPid (c : Nat)
  | fork (c : Nat)
  | assignPid (c : Nat) (p : Int)
  | closeGiven (c : Nat)
  | sendHead (c : Nat)
  | sendBody (c : Nat)
  | shutdown (c : Nat)
  | close (c : Nat)
  | recvfrom
  | answer
  | left
  | killed
  deriving DecidableEq, Repr

structure State where
  pc : Pc
  pid : Int
  errno : Errno
  kids : Children
  sigchld : Bool
  /-- The handler runs, with its flag `one`. -/
  handler : Option Bool
  conns : List Conn
  deriving DecidableEq

def start : State where
  pc := .select
  pid := -1
  errno := .other
  kids := .empty
  sigchld := false
  handler := none
  conns := []

def State.onConn (s : State) (c : Nat) (f : Conn → Conn) : State := { s with conns := s.conns.modify c f }

/-! ### Events -/

/-- How `select` returns: an error, none ready, and which of the two sockets is found ready first. -/
inductive Ready
  | error (errno : Errno)
  | timeUp
  | listen
  | broadcast
  | neither
  deriving DecidableEq, Repr

inductive Stmt
  | select (ready : Ready)
  | testErrno
  | accept (tfd : Option Int)
  | testPid (c : Nat)
  | fork (c : Nat) (pid : Option Int)
  | assignPid (c : Nat) (p : Int)
  | closeGiven (c : Nat)
  | sendHead (c : Nat) (outcome : SendOutcome)
  | sendBody (c : Nat) (outcome : SendOutcome)
  | shutdown (c : Nat)
  | close (c : Nat)
  | recvfrom (i : Except Errno Int)
  | answer
  deriving DecidableEq

inductive Event
  | run (stmt : Stmt)
  | peerReset (c : Nat)
  | childExit (p : Int)
  | sigchld
  | handler
  | waitpid (r : WaitResult)
  deriving DecidableEq

def Stmt.pc : Stmt → Pc
  | .select _ => .select
  | .testErrno => .testErrno
  | .accept _ => .accept
  | .testPid c => .testPid c
  | .fork c _ => .fork c
  | .assignPid c p => .assignPid c p
  | .closeGiven c => .closeGiven c
  | .sendHead c _ => .sendHead c
  | .sendBody c _ => .sendBody c
  | .shutdown c => .shutdown c
  | .close c => .close c
  | .recvfrom _ => .recvfrom
  | .answer => .answer

/-- SIGPIPE needs a connection that the peer has reset. -/
def State.MaySend (s : State) (c : Nat) (outcome : SendOutcome) : Prop :=
  outcome = .sigpipe → (s.conns[c]?.any Conn.reset) = true

instance (s : State) (c : Nat) (outcome : SendOutcome) : Decidable (s.MaySend c outcome) :=
  inferInstanceAs (Decidable (_ → _))

def Stmt.Possible (s : State) : Stmt → Prop
  | .accept (some tfd) => 0 ≤ tfd
  | .fork _ (some p) => s.kids.Fresh p
  | .sendHead c outcome => s.MaySend c outcome
  | .sendBody c outcome => s.MaySend c outcome
  | _ => True

def Enabled (s : State) : Event → Prop
  | .run stmt => s.handler = none ∧ s.pc = stmt.pc ∧ stmt.Possible s
  | .peerReset c => c < s.conns.length
  | .childExit p => p ∈ s.kids.alive
  | .sigchld => True
  | .handler => s.sigchld = true ∧ s.handler = none ∧ s.pc ≠ .killed
  | .waitpid r => s.handler.isSome = true ∧ s.kids.MayReturn r

instance (s : State) : (stmt : Stmt) → Decidable (stmt.Possible s)
  | .select _ => isTrue trivial
  | .testErrno => isTrue trivial
  | .accept none => isTrue trivial
  | .accept (some tfd) => inferInstanceAs (Decidable (0 ≤ tfd))
  | .testPid _ => isTrue trivial
  | .fork _ none => isTrue trivial
  | .fork _ (some p) => inferInstanceAs (Decidable (s.kids.Fresh p))
  | .assignPid _ _ => isTrue trivial
  | .closeGiven _ => isTrue trivial
  | .sendHead c outcome => inferInstanceAs (Decidable (s.MaySend c outcome))
  | .sendBody c outcome => inferInstanceAs (Decidable (s.MaySend c outcome))
  | .shutdown _ => isTrue trivial
  | .close _ => isTrue trivial
  | .recvfrom _ => isTrue trivial
  | .answer => isTrue trivial

instance (s : State) : (e : Event) → Decidable (Enabled s e)
  | .run _ => inferInstanceAs (Decidable (_ ∧ _ ∧ _))
  | .peerReset _ => inferInstanceAs (Decidable (_ < _))
  | .childExit _ => inferInstanceAs (Decidable (_ ∈ _))
  | .sigchld => isTrue trivial
  | .handler => inferInstanceAs (Decidable (_ ∧ _ ∧ _))
  | .waitpid _ => inferInstanceAs (Decidable (_ ∧ _))

/-! ### The statements -/

/-- One `send` of the refusal: what it puts on the connection, and where the parent goes when it returns. -/
def State.sendPart (s : State) (c : Nat) (outcome : SendOutcome) (data : Bytes) (next : Int → Pc) : State :=
  match send outcome data with
  | .ret (err, bytes) => { s.onConn c (fun conn => { conn with sent := conn.sent ++ bytes }) with pc := next err }
  | _ => { s with pc := .killed }

def Stmt.exec (s : State) : Stmt → State
  | .select (.error errno) => { s with pc := .testErrno, errno }
  | .select .timeUp => s
  | .select .listen => { s with pc := .accept }
  | .select .broadcast => { s with pc := .recvfrom }
  | .select .neither => s
  | .testErrno => { s with pc := if s.errno = .EINTR then .select else .left }
  | .accept none => { s with pc := .select }
  | .accept (some tfd) =>
      { s with pc := if tfd > 0 then .testPid s.conns.length else .select, conns := s.conns ++ [{ fd := tfd }] }
  | .testPid c =>
      if s.pid = -1 then { s with pc := .fork c }
      else { s.onConn c (fun conn => { conn with results := conn.results ++ [occupied] }) with pc := .sendHead c }
  -- no descriptor is closed when `fork` fails
  | .fork _ none => { s with pc := .select }
  | .fork c (some p) =>
      { s.onConn c (fun conn => { conn with child := some p }) with pc := .assignPid c p, kids := s.kids.fork p }
  | .assignPid c p => { s with pc := .closeGiven c, pid := p }
  | .closeGiven c => { s.onConn c (fun conn => { conn with closed := conn.closed + 1 }) with pc := .select }
  | .sendHead c outcome =>
      s.sendPart c outcome (encodeLen occupiedHead) fun err => if err < 0 then .shutdown c else .sendBody c
  | .sendBody c outcome => s.sendPart c outcome ((occupied ++ [0]).take occupiedHead) fun _ => .shutdown c
  | .shutdown c => { s with pc := .close c }
  | .close c => { s.onConn c (fun conn => { conn with closed := conn.closed + 1 }) with pc := .select }
  | .recvfrom (.error _) => { s with pc := .left }
  | .recvfrom (.ok i) => { s with pc := if i = 0x5a then .answer else .select }
  | .answer => { s with pc := .select }

/-- One turn of the handler. A failing `waitpid` overwrites `errno`. -/
def State.reap (s : State) (one : Bool) (r : WaitResult) : State :=
  { s with
    handler := (waitTurn one s.pid r).1
    pid := (waitTurn one s.pid r).2
    kids := s.kids.wait r
    errno := match r with
      | .error errno => errno
      | _ => s.errno }

def next (s : State) : Event → State
  | .run stmt => stmt.exec s
  | .peerReset c => s.onConn c fun conn => { conn with reset := true }
  | .childExit p => { s with kids := s.kids.exit p, sigchld := true }
  | .sigchld => { s with sigchld := true }
  | .handler => { s with sigchld := false, handler := some false }
  | .waitpid r => s.reap (s.handler.getD false) r

def step (s : State) (e : Event) : Option State := if Enabled s e then some (next s e) else none

/-! ### Inversion and frame lemmas -/

theorem step_eq_some {s t : State} {e : Event} : step s e = some t ↔ Enabled s e ∧ next s e = t := by
  rw [step, Option.ite_none_right_eq_some, Option.some.injEq]

theorem onConn_getElem? (s : State) (c d : Nat) (f : Conn → Conn) :
    (s.onConn c f).conns[d]? = (s.conns[d]?).map fun conn => if c = d then f conn else conn := by
  rw [State.onConn, List.getElem?_modify]
  rfl

section
variable {s : State} {c : Nat} {conn : Conn} (hconn : s.conns[c]? = some conn)

include hconn

theorem onConn_self (f : Conn → Conn) : (s.onConn c f).conns[c]? = some (f conn) := by
  rw [onConn_getElem?, hconn, Option.map_some, if_pos rfl]

/-- A reset, of this connection or another, is all that changes. -/
theorem peerReset_getElem? (d : Nat) :
    ∃ reset, (s.onConn d fun conn => { conn with reset := true }).conns[c]? = some { conn with reset } := by
  by_cases hd : d = c
  · subst hd
    exact ⟨true, onConn_self hconn _⟩
  · refine ⟨conn.reset, ?_⟩
    rw [onConn_getElem?, hconn, Option.map_some, if_neg hd]

end

/-! ### Control flow -/

/-- Where a statement can lead, and under which condition. -/
inductive Goes (s : State) : Stmt → Pc → Prop
  | selectFails {errno : Errno} : Goes s (.select (.error errno)) .testErrno
  | selectAgain {ready : Ready} : Goes s (.select ready) .select
  | listen : Goes s (.select .listen) .accept
  | broadcast : Goes s (.select .broadcast) .recvfrom
  | interrupted : s.errno = .EINTR → Goes s .testErrno .select
  | leaves : s.errno ≠ .EINTR → Goes s .testErrno .left
  | notAccepted {tfd : Option Int} : Goes s (.accept tfd) .select
  | accepted {tfd : Int} : 0 < tfd → Goes s (.accept (some tfd)) (.testPid s.conns.length)
  | free {c : Nat} : s.pid = -1 → Goes s (.testPid c) (.fork c)
  | taken {c : Nat} : s.pid ≠ -1 → Goes s (.testPid c) (.sendHead c)
  | forkFails {c : Nat} : Goes s (.fork c none) .select
  | forked {c : Nat} {p : Int} : Goes s (.fork c (some p)) (.assignPid c p)
  | assigned {c : Nat} {p : Int} : Goes s (.assignPid c p) (.closeGiven c)
  | given {c : Nat} : Goes s (.closeGiven c) .select
  | headFails {c : Nat} {outcome : SendOutcome} : Goes s (.sendHead c outcome) (.shutdown c)
  | headSent {c : Nat} {outcome : SendOutcome} : Goes s (.sendHead c outcome) (.sendBody c)
  | headKills {c : Nat} : Goes s (.sendHead c .sigpipe) .killed
  | bodySent {c : Nat} {outcome : SendOutcome} : Goes s (.sendBody c outcome) (.shutdown c)
  | bodyKills {c : Nat} : Goes s (.sendBody c .sigpipe) .killed
  | shutdown {c : Nat} : Goes s (.shutdown c) (.close c)
  | closed {c : Nat} : Goes s (.close c) .select
  | recvFails {errno : Errno} : Goes s (.recvfrom (.error errno)) .left
  | asked {i : Int} : Goes s (.recvfrom (.ok i)) .answer
  | notAsked {i : Int} : Goes s (.recvfrom (.ok i)) .select
  | answered : Goes s .answer .select

theorem goes_head (s : State) (c : Nat) (outcome : SendOutcome) (err : Int) :
    Goes s (.sendHead c outcome) (if err < 0 then .shutdown c else .sendBody c) := by
  split
  · exact .headFails
  · exact .headSent

theorem goes_exec {s : State} {stmt : Stmt} (hpc : s.pc = stmt.pc) : Goes s stmt (stmt.exec s).pc := by
  cases stmt with
  | select ready =>
      cases ready with
      | error errno => exact .selectFails
      | timeUp => exact hpc ▸ .selectAgain
      | listen => exact .listen
      | broadcast => exact .broadcast
      | neither => exact hpc ▸ .selectAgain
  | testErrno =>
      show Goes s .testErrno (if s.errno = .EINTR then .select else .left)
      split
      · next hintr => exact .interrupted hintr
      · next hother => exact .leaves hother
  | accept tfd =>
      cases tfd with
      | none => exact .notAccepted
      | some tfd =>
          show Goes s (.accept (some tfd)) (if tfd > 0 then .testPid s.conns.length else .select)
          split
          · next htfd => exact .accepted htfd
          · exact .notAccepted
  | testPid c =>
      rw [Stmt.exec]
      split
      · next hfree => exact .free hfree
      · next htaken => exact .taken htaken
  | fork c pid =>
      cases pid with
      | none => exact .forkFails
      | some p => exact .forked
  | assignPid c p => exact .assigned
  | closeGiven c => exact .given
  | sendHead c outcome =>
      cases outcome with
      | full => exact goes_head s c .full (encodeLen occupiedHead).length
      | short count => exact goes_head s c (.short count) ((encodeLen occupiedHead).take count).length
      | error => exact goes_head s c .error (-1)
      | sigpipe => exact .headKills
  | sendBody c outcome =>
      cases outcome with
      | full => exact .bodySent
      | short count => exact .bodySent
      | error => exact .bodySent
      | sigpipe => exact .bodyKills
  | shutdown c => exact .shutdown
  | close c => exact .closed
  | recvfrom i =>
      cases i with
      | error errno => exact .recvFails
      | ok i =>
          show Goes s (.recvfrom (.ok i)) (if i = 0x5a then .answer else .select)
          split
          · exact .asked
          · exact .notAsked
  | answer => exact .answered

end RemoteCtrl.Service
