import Mathlib.Data.List.Nodup

/-!
# Handles

`Start` keeps the identifier of the thread it creates in a static variable and returns it as an `int`; `Stop`
hands the `int` it is given to `pthread_cancel`. An identifier comes back from the narrowing and the widening
exactly when it is the value of some `int`. A thread is known by the call that has created it; the system may
give one identifier to two threads that do not live at the same time.
-/

namespace RemoteCtrl.Handle

/-- `pthread_t` on the platforms the sources are built for. -/
abbrev ThreadId := BitVec 64

/-- What `pthread_create` leaves in `tid`: the identifier of the new thread; anything, if it fails. -/
inductive Create
  | thread (id : ThreadId)
  | failed (left : ThreadId)
  deriving DecidableEq, Repr

def Create.tid : Create → ThreadId
  | .thread id => id
  | .failed left => left

def Create.thread? : Create → Option ThreadId
  | .thread id => some id
  | .failed _ => none

/-! ### The functions -/

structure StartRun where
  tid : ThreadId
  joined : Option ThreadId
  ret : BitVec 32
  deriving DecidableEq, Repr

/-- The result of `pthread_create` is not looked at; `return tid` narrows. -/
def start (wait : Int) (create : Create) : StartRun :=
  let tid := create.tid
  if wait = 0 then { tid, joined := none, ret := tid.setWidth 32 }
  else { tid, joined := some tid, ret := tid.setWidth 32 }

/-- The argument of `pthread_cancel`: an `int` widened to `pthread_t`, with its sign. -/
def stop (tid : BitVec 32) : ThreadId := tid.signExtend 64

def remoteCtrlServiceOpen (wait : Int) (create : Create) : StartRun := start wait create

def remoteCtrlServiceClose (tid : BitVec 32) : ThreadId := stop tid

/-! ### Sequences of calls -/

/-- A call of `RemoteCtrlServiceOpen(0)`, with what `pthread_create` does, or of `RemoteCtrlServiceClose`. -/
inductive Call
  | opens (create : Create)
  | closes (tid : BitVec 32)
  deriving DecidableEq, Repr

structure Opened where
  create : Create
  ret : BitVec 32
  deriving DecidableEq, Repr

structure State where
  tid : ThreadId := 0
  opened : List Opened := []
  cancelled : List ThreadId := []
  deriving DecidableEq, Repr

def next (s : State) : Call → State
  | .opens create =>
      let run := remoteCtrlServiceOpen 0 create
      { s with tid := run.tid, opened := s.opened ++ [{ create, ret := run.ret }] }
  | .closes tid => { s with cancelled := s.cancelled ++ [remoteCtrlServiceClose tid] }

def after (calls : List Call) : State := calls.foldl next {}

def Call.create? : Call → Option Create
  | .opens create => some create
  | .closes _ => none

/-- The identifiers `pthread_create` has assigned, one for each thread it has created. -/
def threads (calls : List Call) : List ThreadId := (calls.filterMap Call.create?).filterMap Create.thread?

/-- What `RemoteCtrlServiceOpen` has returned, for each of these threads. -/
def handles (calls : List Call) : List (BitVec 32) :=
  ((after calls).opened.filter fun o => o.create.thread?.isSome).map Opened.ret

/-- Closing what an Open has returned cancels the thread that Open has created, and nothing else; and no two
threads have the same handle. -/
def HandleLaw (calls : List Call) : Prop :=
  (∀ o ∈ (after calls).opened, ∀ id, o.create = .thread id →
      (after (calls ++ [.closes o.ret])).cancelled = (after calls).cancelled ++ [id]) ∧
    (handles calls).Nodup

/-- The identifier is the value of some `int`. -/
def FitsInt (id : ThreadId) : Prop := -2147483648 ≤ id.toInt ∧ id.toInt ≤ 2147483647

/-! ### Narrowing and widening -/

theorem signExtend_setWidth_iff (id : ThreadId) : (id.setWidth 32).signExtend 64 = id ↔ FitsInt id := by
  have hwidened : ((id.setWidth 32).signExtend 64).toInt = id.toInt.bmod (2 ^ 32) := by
    rw [BitVec.toInt_signExtend_of_le (by decide), BitVec.toInt_setWidth, BitVec.toInt_eq_toNat_bmod,
      Int.bmod_bmod_of_dvd (by decide)]
  rw [← BitVec.toInt_inj, hwidened, Int.bmod_eq_iff (by decide), Int.sub_self]
  simp only [FitsInt, Int.dvd_zero, and_true]
  omega

theorem opened_foldl (calls : List Call) (s : State) :
    (calls.foldl next s).opened =
      s.opened ++ (calls.filterMap Call.create?).map fun create => { create, ret := create.tid.setWidth 32 } := by
  induction calls generalizing s with
  | nil => simp
  | cons call calls ih =>
      rw [List.foldl_cons, ih]
      cases call with
      | opens create => simp [next, remoteCtrlServiceOpen, start, Call.create?]
      | closes tid => simp [next, List.filterMap_cons, Call.create?]

theorem after_opened (calls : List Call) :
    (after calls).opened =
      (calls.filterMap Call.create?).map fun create => { create, ret := create.tid.setWidth 32 } :=
  (opened_foldl calls {}).trans (List.nil_append _)

/-- The handle of a thread is its identifier, narrowed. -/
theorem handles_eq (calls : List Call) : handles calls = (threads calls).map (BitVec.setWidth 32) := by
  rw [handles, threads, after_opened]
  induction calls.filterMap Call.create? with
  | nil => rfl
  | cons create creates ih =>
      cases create with
      | thread id => exact congrArg (id.setWidth 32 :: ·) ih
      | failed left => exact ih

theorem after_closes (calls : List Call) (tid : BitVec 32) :
    (after (calls ++ [.closes tid])).cancelled = (after calls).cancelled ++ [tid.signExtend 64] := by
  rw [after, List.foldl_append]
  rfl

/-- The first half of the law is about each thread by itself. -/
theorem cancels_iff (calls : List Call) :
    (∀ o ∈ (after calls).opened, ∀ id, o.create = .thread id →
        (after (calls ++ [.closes o.ret])).cancelled = (after calls).cancelled ++ [id]) ↔
      ∀ id ∈ threads calls, FitsInt id := by
  simp only [after_closes, List.append_cancel_left_eq, List.cons.injEq, and_true]
  constructor
  · intro hlaw id hid
    obtain ⟨create, hcreate, hthread⟩ := List.mem_filterMap.mp hid
    cases create with
    | failed left => contradiction
    | thread created =>
        obtain rfl : created = id := Option.some.inj hthread
        have hmem : { create := .thread created, ret := created.setWidth 32 } ∈ (after calls).opened := by
          rw [after_opened]
          exact List.mem_map_of_mem hcreate
        exact (signExtend_setWidth_iff created).mp (hlaw _ hmem created rfl)
  · intro hfits o ho id hcreated
    rw [after_opened] at ho
    obtain ⟨create, hcreate, rfl⟩ := List.mem_map.mp ho
    obtain rfl : create = .thread id := hcreated
    exact (signExtend_setWidth_iff id).mpr (hfits id (List.mem_filterMap.mpr ⟨_, hcreate, rfl⟩))

/-- **Handles.** The law holds of a sequence of calls exactly when every identifier `pthread_create` has assigned
fits an `int` and none has been assigned twice. -/
theorem handle_law_iff (calls : List Call) :
    HandleLaw calls ↔ (∀ id ∈ threads calls, FitsInt id) ∧ (threads calls).Nodup := by
  rw [HandleLaw, cancels_iff, handles_eq]
  refine and_congr_right fun hfits => ⟨List.Nodup.of_map _, fun hnodup => ?_⟩
  refine hnodup.map_on fun id hid id' hid' hsame => ?_
  rw [← (signExtend_setWidth_iff id).mpr (hfits id hid), hsame]
  exact (signExtend_setWidth_iff id').mpr (hfits id' hid')

/-- An identifier as glibc assigns it on x86-64: `pthread_cancel` gets 0xfffffffff7d8b700. -/
theorem wide_identifier_lost : (after [.opens (.thread 0x7ffff7d8b700), .closes 0xf7d8b700]).cancelled =
      [0xfffffffff7d8b700] ∧
    (after [.opens (.thread 0x7ffff7d8b700)]).opened = [{ create := .thread 0x7ffff7d8b700, ret := 0xf7d8b700 }] ∧
    ¬HandleLaw [.opens (.thread 0x7ffff7d8b700)] := by
  refine ⟨by decide, by decide, fun hlaw => ?_⟩
  have hcancelled := hlaw.1 { create := .thread 0x7ffff7d8b700, ret := 0xf7d8b700 } (by decide) _ rfl
  revert hcancelled
  decide

end RemoteCtrl.Handle
