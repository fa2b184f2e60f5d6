import RemoteCtrl.Service.Refusal

/-!
# The descriptors of the parent

Every descriptor `accept` returns is in the parent's hands until a statement closes it. What one statement does
to the connection in hand is said once (`exec_own`); a connection out of hand stays as it is. So a descriptor
that leaves the parent's hands open stays open for ever, and that happens at exactly two places: `fork` fails,
or `accept` returns 0, which the loop takes for a failure.
-/

namespace RemoteCtrl.Service

open CProgram CProgram.Framing CProgram.Transition

/-- The two places. -/
def Leaks : Event → Prop
  | .run (.fork _ none) => True
  | .run (.accept (some tfd)) => tfd ≤ 0
  | _ => False

/-- The connection in hand is still open. -/
def InHand (s : State) : Prop := ∀ c, s.pc.conn = some c → ∃ conn, s.conns[c]? = some conn ∧ conn.closed = 0

/-- Every connection out of hand has been closed once. -/
def ClosedBehind (s : State) : Prop :=
  s.pc ≠ .killed → ∀ c conn, s.conns[c]? = some conn → s.pc.conn ≠ some c → conn.closed = 1

/-- Some connection out of hand is open. -/
def Leaked (s : State) : Prop := ∃ c conn, s.conns[c]? = some conn ∧ s.pc.conn ≠ some c ∧ conn.closed = 0

/-! ### One statement -/

/-- The connection in hand stays there, is closed, or is dropped by a failing `fork` or the end of the process. -/
theorem exec_own {s : State} {stmt : Stmt} {c : Nat} {conn : Conn} (hpc : s.pc = stmt.pc)
    (hown : s.pc.conn = some c) (hconn : s.conns[c]? = some conn) :
    ∃ conn', (stmt.exec s).conns[c]? = some conn' ∧
      (((stmt.exec s).pc.conn = some c ∧ conn'.closed = conn.closed) ∨
        ((stmt.exec s).pc = .select ∧ conn'.closed = conn.closed + 1) ∨ (stmt.exec s).pc = .killed ∨
        (stmt = .fork c none ∧ (stmt.exec s).pc = .select ∧ conn'.closed = conn.closed)) := by
  rw [hpc] at hown
  cases stmt with
  | testPid d =>
      obtain rfl : d = c := Option.some.inj hown
      rw [Stmt.exec]
      split
      · exact ⟨conn, hconn, .inl ⟨rfl, rfl⟩⟩
      · exact ⟨_, onConn_self hconn _, .inl ⟨rfl, rfl⟩⟩
  | fork d pid =>
      obtain rfl : d = c := Option.some.inj hown
      cases pid with
      | none => exact ⟨conn, hconn, .inr (.inr (.inr ⟨rfl, rfl, rfl⟩))⟩
      | some p => exact ⟨_, onConn_self hconn _, .inl ⟨rfl, rfl⟩⟩
  | assignPid d p =>
      obtain rfl : d = c := Option.some.inj hown
      exact ⟨conn, hconn, .inl ⟨rfl, rfl⟩⟩
  | closeGiven d =>
      obtain rfl : d = c := Option.some.inj hown
      exact ⟨_, onConn_self hconn _, .inr (.inl ⟨rfl, rfl⟩)⟩
  | sendHead d outcome =>
      obtain rfl : d = c := Option.some.inj hown
      rcases sendPart_self hconn outcome (encodeLen occupiedHead)
          fun err => if err < 0 then .shutdown d else .sendBody d with
        ⟨err, bytes, -, hafter, hsent⟩ | ⟨hafter, hsame⟩
      · refine ⟨_, hsent, .inl ⟨?_, rfl⟩⟩
        rw [Stmt.exec, hafter]
        split
        · rfl
        · rfl
      · exact ⟨conn, hsame, .inr (.inr (.inl hafter))⟩
  | sendBody d outcome =>
      obtain rfl : d = c := Option.some.inj hown
      rcases sendPart_self hconn outcome ((occupied ++ [0]).take occupiedHead) fun _ => .shutdown d with
        ⟨err, bytes, -, hafter, hsent⟩ | ⟨hafter, hsame⟩
      · refine ⟨_, hsent, .inl ⟨?_, rfl⟩⟩
        rw [Stmt.exec, hafter]
        rfl
      · exact ⟨conn, hsame, .inr (.inr (.inl hafter))⟩
  | shutdown d =>
      obtain rfl : d = c := Option.some.inj hown
      exact ⟨conn, hconn, .inl ⟨rfl, rfl⟩⟩
  | close d =>
      obtain rfl : d = c := Option.some.inj hown
      exact ⟨_, onConn_self hconn _, .inr (.inl ⟨rfl, rfl⟩)⟩
  | select _ | testErrno | accept _ | recvfrom _ | answer => exact absurd hown (Option.some_ne_none c).symm

theorem onConn_length (s : State) (c : Nat) (f : Conn → Conn) : (s.onConn c f).conns.length = s.conns.length := by
  rw [State.onConn, List.length_modify]

theorem exec_length {s : State} {stmt : Stmt} (hother : ∀ tfd, stmt ≠ .accept (some tfd)) :
    (stmt.exec s).conns.length = s.conns.length := by
  cases stmt with
  | select ready => cases ready <;> rfl
  | accept tfd =>
      cases tfd with
      | none => rfl
      | some tfd => exact absurd rfl (hother tfd)
  | testPid c =>
      rw [Stmt.exec]
      split
      · rfl
      · exact onConn_length s c _
  | fork c pid =>
      cases pid with
      | none => rfl
      | some p => exact onConn_length s c _
  | closeGiven c => exact onConn_length s c _
  | sendHead c outcome => cases outcome <;> first | exact onConn_length s c _ | rfl
  | sendBody c outcome => cases outcome <;> first | exact onConn_length s c _ | rfl
  | close c => exact onConn_length s c _
  | recvfrom i => cases i <;> rfl
  | _ => rfl

/-- Only `accept` brings a connection, and takes it in hand unless it is 0. -/
theorem exec_new {s : State} {stmt : Stmt} {c : Nat} {conn : Conn} (hnew : s.conns.length ≤ c)
    (hconn : (stmt.exec s).conns[c]? = some conn) :
    ∃ tfd, stmt = .accept (some tfd) ∧ conn.closed = 0 ∧ (0 < tfd → (stmt.exec s).pc.conn = some c) := by
  have hlt := (List.getElem?_eq_some_iff.mp hconn).1
  by_cases hother : ∀ tfd, stmt ≠ .accept (some tfd)
  · rw [exec_length hother] at hlt
    omega
  · push Not at hother
    obtain ⟨tfd, rfl⟩ := hother
    have hlast : (Stmt.exec s (.accept (some tfd))).conns = s.conns ++ [{ fd := tfd }] := rfl
    rw [hlast, List.length_append, List.length_singleton] at hlt
    obtain rfl : c = s.conns.length := by omega
    rw [hlast, List.getElem?_concat_length, Option.some.injEq] at hconn
    refine ⟨tfd, rfl, hconn ▸ rfl, fun htfd => ?_⟩
    show Pc.conn (if tfd > 0 then .testPid s.conns.length else .select) = _
    rw [if_pos htfd]
    rfl

/-! ### Steps -/

theorem InHand.start : InHand start := fun c hc => absurd hc (by simp [Service.start, Pc.conn])

theorem InHand.exec {s : State} (hinv : InHand s) {stmt : Stmt} (hpc : s.pc = stmt.pc) : InHand (stmt.exec s) := by
  intro c hc
  by_cases hown : s.pc.conn = some c
  · obtain ⟨conn, hconn, hopen⟩ := hinv c hown
    obtain ⟨conn', hconn', ⟨-, hsame⟩ | ⟨hselect, -⟩ | hkilled | ⟨-, hselect, -⟩⟩ := exec_own hpc hown hconn
    · exact ⟨conn', hconn', hsame.trans hopen⟩
    · rw [hselect] at hc
      contradiction
    · rw [hkilled] at hc
      contradiction
    · rw [hselect] at hc
      contradiction
  · by_cases hlt : c < s.conns.length
    · exact absurd hc (exec_other hpc (hpc ▸ hown) hlt).2
    · have hgoes := goes_exec hpc
      rw [hpc] at hown
      generalize (stmt.exec s).pc = pc at hgoes hc
      cases hgoes with
      | accepted htfd =>
          obtain rfl : s.conns.length = c := Option.some.inj hc
          exact ⟨_, List.getElem?_concat_length, rfl⟩
      | free | taken | forked | assigned | headFails | headSent | bodySent | shutdown => exact absurd hc hown
      | _ => exact absurd hc (Option.some_ne_none c).symm

theorem ClosedBehind.exec {s : State} (hinv : ClosedBehind s) (hhand : InHand s) {stmt : Stmt} (hpc : s.pc = stmt.pc)
    (hkeeps : ¬Leaks (.run stmt)) : ClosedBehind (stmt.exec s) := by
  intro halive c conn hconn hbehind
  have hrunning : s.pc ≠ .killed := by
    rw [hpc]
    cases stmt <;> simp [Stmt.pc]
  by_cases hlt : c < s.conns.length
  · by_cases hown : s.pc.conn = some c
    · obtain ⟨old, hold, hopen⟩ := hhand c hown
      obtain ⟨conn', hconn', hafter⟩ := exec_own hpc hown hold
      obtain rfl : conn' = conn := Option.some.inj (hconn'.symm.trans hconn)
      rcases hafter with ⟨hstays, -⟩ | ⟨-, hclosed⟩ | hkilled | ⟨hfork, -, -⟩
      · exact absurd hstays hbehind
      · rw [hclosed, hopen]
      · exact absurd hkilled halive
      · subst hfork
        exact absurd trivial hkeeps
    · rw [(exec_other hpc (hpc ▸ hown) hlt).1] at hconn
      exact hinv hrunning c conn hconn hown
  · obtain ⟨tfd, rfl, -, htaken⟩ := exec_new (Nat.not_lt.mp hlt) hconn
    exact absurd (htaken (Int.not_le.mp hkeeps)) hbehind

theorem Leaked.exec {s : State} (hleaked : Leaked s) {stmt : Stmt} (hpc : s.pc = stmt.pc) : Leaked (stmt.exec s) := by
  obtain ⟨c, conn, hconn, hbehind, hopen⟩ := hleaked
  obtain ⟨hsame, hafter⟩ := exec_other hpc (hpc ▸ hbehind) (List.getElem?_eq_some_iff.mp hconn).1
  exact ⟨c, conn, hsame.trans hconn, hafter, hopen⟩

theorem leaked_of_leaks {s : State} (hhand : InHand s) {stmt : Stmt} (hpc : s.pc = stmt.pc)
    (hleaks : Leaks (.run stmt)) : Leaked (stmt.exec s) := by
  cases stmt with
  | fork c pid =>
      cases pid with
      | none =>
          obtain ⟨conn, hconn, hopen⟩ := hhand c (by rw [hpc]; rfl)
          exact ⟨c, conn, hconn, (Option.some_ne_none c).symm, hopen⟩
      | some p => exact hleaks.elim
  | accept tfd =>
      cases tfd with
      | none => exact hleaks.elim
      | some tfd =>
          refine ⟨s.conns.length, _, List.getElem?_concat_length, ?_, rfl⟩
          show Pc.conn (if tfd > 0 then .testPid s.conns.length else .select) ≠ _
          rw [if_neg (Int.not_lt.mpr hleaks)]
          exact (Option.some_ne_none _).symm
  | _ => exact hleaks.elim

theorem Leaks.run {e : Event} (hleaks : Leaks e) : ∃ stmt, e = .run stmt := by
  cases e with
  | run stmt => exact ⟨stmt, rfl⟩
  | _ => exact hleaks.elim

/-- A statement of the parent, or something that moves and closes nothing. -/
theorem step_cases {s t : State} {e : Event} (hstep : step s e = some t) :
    (∃ stmt, e = .run stmt ∧ s.pc = stmt.pc ∧ stmt.exec s = t) ∨
      ((∀ stmt, e ≠ .run stmt) ∧ t.pc = s.pc ∧
        ∀ c : Nat, (t.conns[c]?).map Conn.closed = (s.conns[c]?).map Conn.closed) := by
  obtain ⟨henabled, rfl⟩ := step_eq_some.mp hstep
  cases e with
  | run stmt => exact .inl ⟨stmt, rfl, henabled.2.1, rfl⟩
  | peerReset d =>
      refine .inr ⟨by simp, rfl, fun c => ?_⟩
      show ((s.onConn d fun conn => { conn with reset := true }).conns[c]?).map Conn.closed = _
      rw [onConn_getElem?, Option.map_map]
      congr 1
      funext conn
      show Conn.closed (if d = c then _ else conn) = conn.closed
      split
      · rfl
      · rfl
  | childExit p => exact .inr ⟨by simp, rfl, fun _ => rfl⟩
  | sigchld => exact .inr ⟨by simp, rfl, fun _ => rfl⟩
  | handler => exact .inr ⟨by simp, rfl, fun _ => rfl⟩
  | waitpid r => exact .inr ⟨by simp, rfl, fun _ => rfl⟩

section
variable {s t : State} (hpc : t.pc = s.pc)
  (hclosed : ∀ c : Nat, (t.conns[c]?).map Conn.closed = (s.conns[c]?).map Conn.closed)

include hpc hclosed

theorem InHand.frame (hinv : InHand s) : InHand t := by
  intro c hc
  obtain ⟨conn, hconn, hopen⟩ := hinv c (hpc ▸ hc)
  have hafter := hclosed c
  rw [hconn, Option.map_some, hopen] at hafter
  exact Option.map_eq_some_iff.mp hafter

theorem ClosedBehind.frame (hinv : ClosedBehind s) : ClosedBehind t := by
  intro halive c conn hconn hbehind
  have hbefore := (hclosed c).symm
  rw [hconn, Option.map_some] at hbefore
  obtain ⟨old, hold, hsame⟩ := Option.map_eq_some_iff.mp hbefore
  exact hsame ▸ hinv (hpc ▸ halive) c old hold (hpc ▸ hbehind)

theorem Leaked.frame (hleaked : Leaked s) : Leaked t := by
  obtain ⟨c, conn, hconn, hbehind, hopen⟩ := hleaked
  have hafter := hclosed c
  rw [hconn, Option.map_some, hopen] at hafter
  obtain ⟨conn', hconn', hopen'⟩ := Option.map_eq_some_iff.mp hafter
  exact ⟨c, conn', hconn', hpc ▸ hbehind, hopen'⟩

end

theorem InHand.step {s t : State} {e : Event} (hinv : InHand s) (hstep : step s e = some t) : InHand t := by
  obtain ⟨stmt, -, hpc, rfl⟩ | ⟨-, hpc, hclosed⟩ := step_cases hstep
  · exact hinv.exec hpc
  · exact hinv.frame hpc hclosed

theorem ClosedBehind.step {s t : State} {e : Event} (hinv : ClosedBehind s) (hhand : InHand s) (hkeeps : ¬Leaks e)
    (hstep : step s e = some t) : ClosedBehind t := by
  obtain ⟨stmt, rfl, hpc, rfl⟩ | ⟨-, hpc, hclosed⟩ := step_cases hstep
  · exact hinv.exec hhand hpc hkeeps
  · exact hinv.frame hpc hclosed

/-- A leak stays, and the two places make one. -/
theorem Leaked.step {s t : State} {e : Event} (hhand : InHand s) (hleaks : Leaked s ∨ Leaks e)
    (hstep : step s e = some t) : Leaked t := by
  obtain ⟨stmt, rfl, hpc, rfl⟩ | ⟨hother, hpc, hclosed⟩ := step_cases hstep
  · rcases hleaks with hleaked | hleaks
    · exact hleaked.exec hpc
    · exact leaked_of_leaks hhand hpc hleaks
  · rcases hleaks with hleaked | hleaks
    · exact hleaked.frame hpc hclosed
    · obtain ⟨stmt, rfl⟩ := hleaks.run
      exact absurd rfl (hother stmt)

/-! ### Runs -/

theorem leaked_of_run {es : List Event} {s u : State} (hrun : run step s es = some u) (hhand : InHand s)
    (hleaks : Leaked s ∨ ∃ e ∈ es, Leaks e) : Leaked u := by
  induction es generalizing s with
  | nil =>
      rw [run_nil, Option.some.injEq] at hrun
      refine hrun ▸ hleaks.resolve_right fun hnone => ?_
      obtain ⟨e, he, -⟩ := hnone
      exact absurd he List.not_mem_nil
  | cons e es ih =>
      obtain ⟨t, hstep, hrest⟩ := run_cons.mp hrun
      refine ih hrest (hhand.step hstep) ?_
      rcases hleaks with hleaked | ⟨f, hf, hleaks⟩
      · exact .inl (Leaked.step hhand (.inl hleaked) hstep)
      · rcases List.mem_cons.mp hf with rfl | hf
        · exact .inl (Leaked.step hhand (.inr hleaks) hstep)
        · exact .inr ⟨f, hf, hleaks⟩

theorem closedBehind_of_run {es : List Event} {s : State} (hrun : run step start es = some s)
    (hkeeps : ∀ e ∈ es, ¬Leaks e) : ClosedBehind s := by
  have halong : Along step (fun _ e => ¬Leaks e) start es :=
    (along_trivial start es).of_mem fun _ e he _ => hkeeps e he
  have hstart : InHand start ∧ ClosedBehind start :=
    ⟨.start, fun _ c conn hconn => absurd hconn (by simp [Service.start])⟩
  have hstep (s : State) (e : Event) (t : State) (hinv : InHand s ∧ ClosedBehind s) (hkeeps : ¬Leaks e)
      (hstep : step s e = some t) : InHand t ∧ ClosedBehind t :=
    ⟨hinv.1.step hstep, hinv.2.step hinv.1 hkeeps hstep⟩
  exact (run_invariant_along hstep hrun halong hstart).2

/-- **Descriptors.** Back in `select`, the parent has closed every descriptor `accept` has returned exactly once
if and only if no `fork` has failed and `accept` has never returned 0. -/
theorem descriptors_closed_iff {es : List Event} {s : State} (hrun : run step start es = some s)
    (hselect : s.pc = .select) : (∀ conn ∈ s.conns, conn.closed = 1) ↔ ∀ e ∈ es, ¬Leaks e := by
  have hbehind (c : Nat) : s.pc.conn ≠ some c := by
    rw [hselect]
    exact (Option.some_ne_none c).symm
  constructor
  · intro hclosed e he hleaks
    obtain ⟨c, conn, hconn, -, hopen⟩ := leaked_of_run hrun .start (.inr ⟨e, he, hleaks⟩)
    have hone := hclosed conn (List.mem_of_getElem? hconn)
    omega
  · intro hkeeps conn hmem
    obtain ⟨c, hconn⟩ := List.getElem?_of_mem hmem
    refine closedBehind_of_run hrun hkeeps ?_ c conn hconn (hbehind c)
    rw [hselect]
    decide

/-- One client is served, the next one refused. -/
def servedAndRefused : List Event :=
  [.run (.select .listen), .run (.accept (some 7)), .run (.testPid 0), .run (.fork 0 (some 100)),
    .run (.assignPid 0 100), .run (.closeGiven 0), .run (.select .listen), .run (.accept (some 8)),
    .run (.testPid 1), .run (.sendHead 1 .error), .run (.shutdown 1), .run (.close 1)]

theorem descriptors_closed_servedAndRefused : ∃ s, run step start servedAndRefused = some s ∧
    s.conns.length = 2 ∧ ∀ conn ∈ s.conns, conn.closed = 1 := by
  have hkeeps : ∀ e ∈ servedAndRefused, ¬Leaks e := by
    simp [servedAndRefused, Leaks]
  exact ⟨_, rfl, rfl, (descriptors_closed_iff rfl rfl).mpr hkeeps⟩

/-- `fork` fails: `CreateClientProcess` returns -1, the loop goes back to `select`, and nobody closes the descriptor. -/
theorem failed_fork_leaks : ∃ s, run step start [.run (.select .listen), .run (.accept (some 7)), .run (.testPid 0),
    .run (.fork 0 none)] = some s ∧ s.pc = .select ∧ ¬∀ conn ∈ s.conns, conn.closed = 1 :=
  ⟨_, rfl, rfl, by decide⟩

end RemoteCtrl.Service
