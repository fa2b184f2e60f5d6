import RemoteCtrl.Service.Slot

/-!
# One session, and a refusal for everybody else

While a child is alive the slot is taken, so a connection tested then goes to the refusal. From there on it is
followed through every later step: the two sends put on it what one call of `SendResult` with the refusal
puts, it is closed once, and no statement the parent executes for another connection touches it.
-/

namespace RemoteCtrl.Service

open CProgram CProgram.Framing CProgram.Transition

def Pc.conn : Pc → Option Nat
  | .testPid c => some c
  | .fork c => some c
  | .assignPid c _ => some c
  | .closeGiven c => some c
  | .sendHead c => some c
  | .sendBody c => some c
  | .shutdown c => some c
  | .close c => some c
  | _ => none

/-! ### What the two sends put on the connection -/

/-- `SendResult` with the refusal returns, and has sent these bytes. -/
def Answered (conn : Conn) : Prop :=
  ∃ first second err, sendResult conn.fd first second (some occupied) = .ret (err, conn.sent)

theorem answered_of_head {conn : Conn} (hfd : 0 < conn.fd) {first : SendOutcome} {err : Int}
    (hfirst : send first (encodeLen occupiedHead) = .ret (err, conn.sent)) (herr : err < 0) : Answered conn := by
  refine ⟨first, .full, err, ?_⟩
  rw [sendResult_some hfd, sendCmd, show (occupied.length + 1) % 65536 = occupiedHead from rfl, hfirst]
  simp only [Outcome.ret_bind, herr, if_true, Outcome.pure_eq]

theorem answered_of_body {conn : Conn} (hfd : 0 < conn.fd) {first second : SendOutcome} {err err' : Int}
    {header body : Bytes} (hfirst : send first (encodeLen occupiedHead) = .ret (err, header)) (herr : ¬ err < 0)
    (hsecond : send second ((occupied ++ [0]).take occupiedHead) = .ret (err', body))
    (hsent : conn.sent = header ++ body) : Answered conn := by
  refine ⟨first, second, err, ?_⟩
  rw [sendResult_some hfd, sendCmd, show (occupied.length + 1) % 65536 = occupiedHead from rfl, hfirst]
  simp only [Outcome.ret_bind, herr, if_false, hsecond, hsent, Outcome.pure_eq]

/-! ### A refused connection -/

/-- How far the parent is with the refusal of connection `c`, at a program point. -/
inductive Refusing (c : Nat) (conn : Conn) : Pc → Prop
  | head : conn.sent = [] → conn.closed = 0 → Refusing c conn (.sendHead c)
  | body {first : SendOutcome} {err : Int} : send first (encodeLen occupiedHead) = .ret (err, conn.sent) →
      ¬ err < 0 → conn.closed = 0 → Refusing c conn (.sendBody c)
  | shutdown : Answered conn → conn.closed = 0 → Refusing c conn (.shutdown c)
  | close : Answered conn → conn.closed = 0 → Refusing c conn (.close c)
  | killed : Refusing c conn .killed
  | done {pc : Pc} : pc.conn ≠ some c → Answered conn → conn.closed = 1 → Refusing c conn pc

/-- Connection `c` was refused: no child has it, and `SendResult` was called once, with the refusal. -/
def Refused (c : Nat) (s : State) : Prop :=
  ∃ conn, s.conns[c]? = some conn ∧ 0 < conn.fd ∧ conn.child = none ∧ conn.results = [occupied] ∧
    Refusing c conn s.pc

theorem Refusing.reset {c : Nat} {conn : Conn} {pc : Pc} (h : Refusing c conn pc) (reset : Bool) :
    Refusing c { conn with reset } pc := by
  cases h with
  | head hsent hclosed => exact .head hsent hclosed
  | body hfirst herr hclosed => exact .body hfirst herr hclosed
  | shutdown hanswered hclosed => exact .shutdown hanswered hclosed
  | close hanswered hclosed => exact .close hanswered hclosed
  | killed => exact .killed
  | done hpc hanswered hclosed => exact .done hpc hanswered hclosed

/-- A statement about another connection, or about none, leaves a connection as it is. -/
theorem exec_other {s : State} {stmt : Stmt} {c : Nat} (hpc : s.pc = stmt.pc) (hconn : stmt.pc.conn ≠ some c)
    (hc : c < s.conns.length) :
    (stmt.exec s).conns[c]? = s.conns[c]? ∧ (stmt.exec s).pc.conn ≠ some c := by
  have hgoes := goes_exec hpc
  have hon {d : Nat} (hd : stmt.pc.conn = some d) (f : Conn → Conn) : (s.onConn d f).conns[c]? = s.conns[c]? := by
    have hne : d ≠ c := fun hsame => hconn (hsame ▸ hd)
    rw [onConn_getElem?]
    simp only [if_neg hne, Option.map_id']
  refine ⟨?_, ?_⟩
  · cases stmt with
    | select ready => cases ready <;> rfl
    | accept tfd =>
        cases tfd with
        | none => rfl
        | some tfd => exact List.getElem?_append_left hc
    | testPid d =>
        rw [Stmt.exec]
        split
        · rfl
        · exact hon rfl _
    | fork d pid =>
        cases pid with
        | none => rfl
        | some p => exact hon rfl _
    | closeGiven d => exact hon rfl _
    | sendHead d outcome => cases outcome <;> first | exact hon rfl _ | rfl
    | sendBody d outcome => cases outcome <;> first | exact hon rfl _ | rfl
    | close d => exact hon rfl _
    | recvfrom i => cases i <;> rfl
    | _ => rfl
  · generalize (stmt.exec s).pc = pc at hgoes
    cases hgoes with
    | accepted htfd =>
        intro h
        exact absurd (Option.some.inj h) (by omega)
    -- the statement before was about the same connection
    | free | taken | forked | assigned | headFails | headSent | bodySent | shutdown => exact hconn
    | _ => exact (Option.some_ne_none c).symm

theorem sendPart_self {s : State} {c : Nat} {conn : Conn} (hconn : s.conns[c]? = some conn) (outcome : SendOutcome)
    (data : Bytes) (next : Int → Pc) :
    (∃ err bytes, send outcome data = .ret (err, bytes) ∧ (s.sendPart c outcome data next).pc = next err ∧
        (s.sendPart c outcome data next).conns[c]? = some { conn with sent := conn.sent ++ bytes }) ∨
      ((s.sendPart c outcome data next).pc = .killed ∧
        (s.sendPart c outcome data next).conns[c]? = some conn) := by
  cases outcome with
  | full => exact .inl ⟨_, _, rfl, rfl, onConn_self hconn _⟩
  | short count => exact .inl ⟨_, _, rfl, rfl, onConn_self hconn _⟩
  | error => exact .inl ⟨_, _, rfl, rfl, onConn_self hconn _⟩
  | sigpipe => exact .inr ⟨rfl, hconn⟩

theorem Refused.exec {c : Nat} {s : State} (hrefused : Refused c s) {stmt : Stmt} (hpc : s.pc = stmt.pc) :
    Refused c (stmt.exec s) := by
  obtain ⟨conn, hconn, hfd, hchild, hresults, hrefusing⟩ := hrefused
  generalize hat : s.pc = pc at hrefusing
  rw [hpc] at hat
  cases hrefusing with
  | head hsent hclosed =>
      cases stmt with
      | sendHead d outcome =>
          obtain rfl : d = c := Pc.sendHead.inj hat
          rcases sendPart_self hconn outcome (encodeLen occupiedHead)
              fun err => if err < 0 then .shutdown d else .sendBody d with
            ⟨err, bytes, hret, hafter, hconn'⟩ | ⟨hafter, hconn'⟩
          · refine ⟨_, hconn', hfd, hchild, hresults, ?_⟩
            rw [hsent, List.nil_append]
            show Refusing d _ (s.sendPart d outcome _ _).pc
            rw [hafter]
            split
            · next herr => exact .shutdown (answered_of_head hfd hret herr) hclosed
            · next herr => exact .body hret herr hclosed
          · exact ⟨conn, hconn', hfd, hchild, hresults, hafter ▸ .killed⟩
      | _ => simp [Stmt.pc] at hat
  | body hfirst herr hclosed =>
      cases stmt with
      | sendBody d outcome =>
          obtain rfl : d = c := Pc.sendBody.inj hat
          rcases sendPart_self hconn outcome ((occupied ++ [0]).take occupiedHead) fun _ => .shutdown d with
            ⟨err', bytes, hret, hafter, hconn'⟩ | ⟨hafter, hconn'⟩
          · refine ⟨_, hconn', hfd, hchild, hresults, ?_⟩
            show Refusing d _ (s.sendPart d outcome _ _).pc
            rw [hafter]
            exact .shutdown (answered_of_body hfd hfirst herr hret rfl) hclosed
          · exact ⟨conn, hconn', hfd, hchild, hresults, hafter ▸ .killed⟩
      | _ => simp [Stmt.pc] at hat
  | shutdown hanswered hclosed =>
      cases stmt with
      | shutdown d =>
          obtain rfl : d = c := Pc.shutdown.inj hat
          exact ⟨conn, hconn, hfd, hchild, hresults, .close hanswered hclosed⟩
      | _ => simp [Stmt.pc] at hat
  | close hanswered hclosed =>
      cases stmt with
      | close d =>
          obtain rfl : d = c := Pc.close.inj hat
          refine ⟨_, onConn_self hconn _, hfd, hchild, hresults, .done ?_ hanswered ?_⟩
          · exact (Option.some_ne_none d).symm
          · rw [hclosed]
      | _ => simp [Stmt.pc] at hat
  | killed => cases stmt <;> simp [Stmt.pc] at hat
  | done hother hanswered hclosed =>
      obtain ⟨hsame, hafter⟩ := exec_other hpc (hat ▸ hother) (List.getElem?_eq_some_iff.mp hconn).1
      exact ⟨conn, hsame.trans hconn, hfd, hchild, hresults, .done hafter hanswered hclosed⟩

theorem Refused.step {c : Nat} {s t : State} {e : Event} (hrefused : Refused c s) (hstep : step s e = some t) :
    Refused c t := by
  obtain ⟨henabled, rfl⟩ := step_eq_some.mp hstep
  cases e with
  | run stmt => exact hrefused.exec henabled.2.1
  | peerReset d =>
      obtain ⟨conn, hconn, hfd, hchild, hresults, hrefusing⟩ := hrefused
      obtain ⟨reset, hafter⟩ := peerReset_getElem? hconn d
      exact ⟨_, hafter, hfd, hchild, hresults, hrefusing.reset reset⟩
  | childExit p => exact hrefused
  | sigchld => exact hrefused
  | handler => exact hrefused
  | waitpid r => exact hrefused

/-! ### The test while a child is alive -/

def Untested (s : State) : Prop :=
  ∀ c, s.pc = .testPid c → ∃ fd reset, 0 < fd ∧ s.conns[c]? = some { fd, reset }

theorem Untested.step {s t : State} {e : Event} (hinv : Untested s) (hstep : step s e = some t) : Untested t := by
  obtain ⟨henabled, rfl⟩ := step_eq_some.mp hstep
  cases e with
  | run stmt =>
      intro c hc
      have hgoes := goes_exec henabled.2.1
      rw [show (stmt.exec s).pc = .testPid c from hc] at hgoes
      cases hgoes with
      | accepted htfd => exact ⟨_, false, htfd, List.getElem?_concat_length⟩
  | peerReset d =>
      intro c hc
      obtain ⟨fd, reset, hfd, hconn⟩ := hinv c hc
      obtain ⟨reset', hafter⟩ := peerReset_getElem? hconn d
      exact ⟨fd, reset', hfd, hafter⟩
  | childExit p => exact hinv
  | sigchld => exact hinv
  | handler => exact hinv
  | waitpid r => exact hinv

theorem refused_of_alive {s t : State} {c : Nat} (hexclusive : Exclusive s) (huntested : Untested s)
    (halive : s.kids.alive ≠ []) (hstep : step s (.run (.testPid c)) = some t) : Refused c t := by
  obtain ⟨⟨-, hpc, -⟩, rfl⟩ := step_eq_some.mp hstep
  obtain ⟨fd, reset, hfd, hconn⟩ := huntested c hpc
  have hslot : s.slot = s.pid := by rw [State.slot, hpc]; rfl
  have htaken : s.pid ≠ -1 := fun hfree => halive (hexclusive.alive_of_free (hslot.trans hfree))
  refine ⟨{ fd, reset, results := [occupied] }, ?_, hfd, rfl, rfl, ?_⟩
  · rw [next, Stmt.exec, if_neg htaken]
    exact onConn_self hconn _
  · rw [next, Stmt.exec, if_neg htaken]
    exact .head rfl rfl

/-- **One session.** In every reachable state at most one child is alive, and a connection tested while one is
alive is never handed to a child, gets one call of `SendResult` with the refusal, and is closed once before
the parent is back in `select`. -/
theorem session_exclusive {s : State} (hreach : Reaches step start s) :
    s.kids.alive.length ≤ 1 ∧
      ∀ c t u, s.kids.alive ≠ [] → step s (.run (.testPid c)) = some t → Reaches step t u →
        ∃ conn, u.conns[c]? = some conn ∧ conn.child = none ∧ conn.results = [occupied] ∧
          (u.pc = .select → Answered conn ∧ conn.closed = 1) := by
  have hexclusive := Exclusive.of_reaches hreach
  have huntested : Untested s :=
    hreach.invariant (fun _ _ _ hinv hstep => hinv.step hstep) fun c hc => absurd hc (by simp [start])
  refine ⟨hexclusive.length_le_one, fun c t u halive htest hlater => ?_⟩
  have hrefused : Refused c u :=
    hlater.invariant (fun _ _ _ hinv hstep => hinv.step hstep)
      (refused_of_alive hexclusive huntested halive htest)
  obtain ⟨conn, hconn, -, hchild, hresults, hrefusing⟩ := hrefused
  refine ⟨conn, hconn, hchild, hresults, fun hselect => ?_⟩
  rw [hselect] at hrefusing
  cases hrefusing with
  | done _ hanswered hclosed => exact ⟨hanswered, hclosed⟩

def busy : List Event :=
  [.run (.select .listen), .run (.accept (some 7)), .run (.testPid 0), .run (.fork 0 (some 100)),
    .run (.assignPid 0 100), .run (.closeGiven 0), .run (.select .listen), .run (.accept (some 8))]

def refusal : List Event :=
  [.run (.sendHead 1 .full), .run (.sendBody 1 (.short 3)), .run (.shutdown 1), .run (.close 1)]

theorem session_exclusive_refused :
    ∃ s t u, run step start busy = some s ∧ step s (.run (.testPid 1)) = some t ∧ run step t refusal = some u ∧
      s.kids.alive.length ≤ 1 ∧ ∃ conn, u.conns[1]? = some conn ∧ conn.child = none ∧ Answered conn ∧
        conn.closed = 1 := by
  refine ⟨_, _, _, rfl, rfl, rfl, ?_⟩
  obtain ⟨hone, hrefused⟩ := session_exclusive ⟨busy, rfl⟩
  obtain ⟨conn, hconn, hchild, -, hselect⟩ := hrefused 1 _ _ (List.cons_ne_nil _ _) rfl ⟨refusal, rfl⟩
  exact ⟨hone, conn, hconn, hchild, hselect rfl⟩

end RemoteCtrl.Service
