import RemoteCtrl.Service.Slot

/-!
# The loop and its clients

Three things take the parent out of its loop although `select` has not failed: SIGPIPE in one of the sends of
the refusal, a failing `recvfrom`, and a handler that overwrites `errno` between an interrupted `select` and
the test of it. In a run without them the parent stays in the loop until `select` itself fails.
-/

namespace RemoteCtrl.Service

open CProgram CProgram.Framing CProgram.Transition

/-- The step is none of the three. -/
def Survivable (s : State) : Event → Prop
  | .run (.sendHead _ outcome) => outcome ≠ .sigpipe
  | .run (.sendBody _ outcome) => outcome ≠ .sigpipe
  | .run (.recvfrom (.error _)) => False
  | .waitpid (.error errno) => s.pc = .testErrno → errno = .EINTR
  | _ => True

def SelectFails (e : Event) : Prop := ∃ errno, e = .run (.select (.error errno)) ∧ errno ≠ .EINTR

/-- The parent is in its loop, unless `select` has failed, and so is the interruption an error of `select` is
taken for. -/
structure InLoop (failed : Prop) (s : State) : Prop where
  alive : s.pc ≠ .killed
  loops : s.pc = .left → failed
  errno : s.pc = .testErrno → s.errno = .EINTR ∨ failed

section
variable {failed : Prop}

theorem InLoop.start : InLoop failed start :=
  ⟨by decide, fun h => absurd h (by decide), fun h => absurd h (by decide)⟩

theorem InLoop.exec {s : State} (hinv : InLoop failed s) {stmt : Stmt} (hpc : s.pc = stmt.pc)
    (hsurvivable : Survivable s (.run stmt)) (hselect : SelectFails (.run stmt) → failed) :
    InLoop failed (stmt.exec s) := by
  have hgoes := goes_exec hpc
  refine ⟨fun hkilled => ?_, fun hleft => ?_, fun htest => ?_⟩
  · rw [hkilled] at hgoes
    cases hgoes with
    | headKills => exact hsurvivable rfl
    | bodyKills => exact hsurvivable rfl
  · rw [hleft] at hgoes
    cases hgoes with
    | leaves herrno => exact (hinv.errno hpc).resolve_left herrno
    | recvFails => exact hsurvivable.elim
  · rw [htest] at hgoes
    cases hgoes with
    | selectFails =>
        next errno =>
          by_cases herrno : errno = .EINTR
          · exact .inl herrno
          · exact .inr (hselect ⟨errno, rfl, herrno⟩)

theorem InLoop.step {s t : State} {e : Event} (hinv : InLoop failed s) (hsurvivable : Survivable s e)
    (hselect : SelectFails e → failed) (hstep : step s e = some t) : InLoop failed t := by
  obtain ⟨henabled, rfl⟩ := step_eq_some.mp hstep
  cases e with
  | run stmt => exact hinv.exec henabled.2.1 hsurvivable hselect
  | peerReset c => exact ⟨hinv.alive, hinv.loops, hinv.errno⟩
  | childExit p => exact ⟨hinv.alive, hinv.loops, hinv.errno⟩
  | sigchld => exact ⟨hinv.alive, hinv.loops, hinv.errno⟩
  | handler => exact ⟨hinv.alive, hinv.loops, hinv.errno⟩
  | waitpid r =>
      refine ⟨hinv.alive, hinv.loops, fun htest => ?_⟩
      cases r with
      | running => exact hinv.errno htest
      | child p => exact hinv.errno htest
      | error errno => exact .inl (hsurvivable htest)

end

/-- **The loop survives.** In a run of survivable steps the parent is not killed, and it leaves its loop only
after `select` has failed with an error other than an interruption. -/
theorem loop_survives {es : List Event} {s : State} (hrun : run step start es = some s)
    (hsurvivable : Along step Survivable start es) :
    s.pc ≠ .killed ∧ (s.pc = .left → ∃ errno, .run (.select (.error errno)) ∈ es ∧ errno ≠ .EINTR) := by
  have halong := hsurvivable.of_mem (q := fun s e => Survivable s e ∧ (SelectFails e → ∃ f ∈ es, SelectFails f))
    fun _ e he h => ⟨h, fun hfails => ⟨e, he, hfails⟩⟩
  have hinv : InLoop (∃ f ∈ es, SelectFails f) s :=
    run_invariant_along (fun _ _ _ hinv hgood hstep => hinv.step hgood.1 hgood.2 hstep) hrun halong .start
  refine ⟨hinv.alive, fun hleft => ?_⟩
  obtain ⟨f, hf, errno, rfl, herrno⟩ := hinv.loops hleft
  exact ⟨errno, hf, herrno⟩

def refusedAndAsked : List Event :=
  [.run (.select .listen), .run (.accept (some 7)), .run (.testPid 0), .run (.fork 0 (some 100)),
    .run (.assignPid 0 100), .run (.closeGiven 0), .run (.select .listen), .run (.accept (some 8)),
    .run (.testPid 1), .run (.sendHead 1 .full), .run (.sendBody 1 .full), .run (.shutdown 1), .run (.close 1),
    .run (.select (.error .EINTR)), .run .testErrno, .run (.select .broadcast), .run (.recvfrom (.ok 0x5a)),
    .run .answer]

theorem loop_survives_refusal : ∃ s, run step start refusedAndAsked = some s ∧ s.pc ≠ .killed := by
  have hsurvivable : ∀ e ∈ refusedAndAsked, ∀ s, Survivable s e := by
    simp [refusedAndAsked, Survivable]
  have halong : Along step Survivable start refusedAndAsked :=
    (along_trivial start refusedAndAsked).of_mem fun s e he _ => hsurvivable e he s
  exact ⟨_, rfl, (loop_survives rfl halong).1⟩

/-- A client that is refused resets its connection after `accept`: SIGPIPE ends the process. A failing
`recvfrom` leaves the loop. -/
theorem refused_client_kills :
    (∃ s, run step start [.run (.select .listen), .run (.accept (some 7)), .run (.testPid 0),
        .run (.fork 0 (some 100)), .run (.assignPid 0 100), .run (.closeGiven 0), .run (.select .listen),
        .run (.accept (some 8)), .peerReset 1, .run (.testPid 1), .run (.sendHead 1 .sigpipe)] = some s ∧
        s.pc = .killed) ∧
      ∃ s, run step start [.run (.select .broadcast), .run (.recvfrom (.error .EINTR))] = some s ∧ s.pc = .left :=
  ⟨⟨_, rfl, rfl⟩, ⟨_, rfl, rfl⟩⟩

end RemoteCtrl.Service
