import RemoteCtrl.Session.Wire

/-!
# Dispatching a command

`handleCmd` of `RemoteCtrlService.c`: the assertions on the end of the command, the splitting loop into
`cmdarg_list[256]`, and the call of the task found in the library. The library is what `dlopen` answers:
NULL, or the function `dlsym` from names to tasks. Nothing bounds the loop, and what lies behind the array is
not known: `spare` is the number of entries there that can be overwritten unnoticed.
-/

namespace RemoteCtrl

open CProgram

def cmdargSlots : Nat := 256

def isDelim (c : UInt8) : Bool := c ∈ ascii ":\r\n\t"

abbrev Task := List (Option Bytes) → Outcome (Option Bytes)

abbrev TaskLib := Bytes → Option Task

/-- The loop behind the end of the array: `spare` stores go unnoticed there and are read again by the task, the
next one ends the process. -/
def splitPast : Nat → Option Bytes → Outcome (List (Option Bytes))
  | 0, _ => .fault .outOfBounds
  | spare + 1, curcmdentry =>
      match strsep isDelim curcmdentry with
      | (none, _) => .ret [none]
      | (some token, next) => do
          let more ← splitPast spare next
          return some token :: more

/-- `while(NULL != (cmdarg_list[i++] = strsep(&curcmdentry, ":\r\n\t")));` with `room` entries of the array
left from index `i` on. The array is zero-initialised, so what is behind the loop's last store is NULL. -/
def splitArgs (spare : Nat) : Nat → Option Bytes → Outcome (List (Option Bytes))
  | 0, curcmdentry => splitPast spare curcmdentry
  | room + 1, curcmdentry =>
      match strsep isDelim curcmdentry with
      | (none, _) => .ret (none :: List.replicate room none)
      | (some token, next) => do
          let more ← splitArgs spare room next
          return some token :: more

def callTask (dl : Option TaskLib) (cmdargList : List (Option Bytes)) : Outcome (Option Bytes) :=
  match dl with
  | none => .ret (some (ascii "error:message=can load ./libremotetask.so\n"))
  | some dlsym =>
      match cmdargList with
      | some name :: _ =>
          match dlsym name with
          | some remoteservice => remoteservice cmdargList
          | none => .ret (some (ascii "error:message=can't find task %s\n"))
      | _ => .fault .nullPointer

def handleCmd (spare : Nat) (dl : Option TaskLib) (cmdstr : Bytes) : Outcome (Option Bytes) := do
  Outcome.require (2 ≤ cmdstr.length)
  Outcome.require (cmdstr[cmdstr.length - 2]? = some 13)
  Outcome.require (cmdstr[cmdstr.length - 1]? = some 10)
  let cmdargList ← splitArgs spare cmdargSlots (some cmdstr)
  callTask dl cmdargList

/-! ### Two tasks of the library -/

/-- `KillProcess`: the body is commented out. -/
def killProcess : Task := fun _ => .ret none

/-- `CheckKey`; `allocated` is whether `malloc` succeeds. -/
def checkKey (allocated : Bool) : Task := fun _ =>
  if allocated then .ret (some (ascii "checkkey:result=0:message=seuccessful\r\n")) else .ret none

/-! ### The argument list -/

/-- The arguments and the final NULL, in an array of so many entries and behind its end. -/
def argList (slots : Nat) (args : List Bytes) : List (Option Bytes) :=
  args.map some ++ none :: List.replicate (slots - (args.length + 1)) none

theorem tokens_step (cur : Option Bytes) :
    (cur = none ∧ tokens isDelim cur = []) ∨
      ∃ token next, strsep isDelim cur = (some token, next) ∧ tokens isDelim cur = token :: tokens isDelim next := by
  cases cur with
  | none => exact .inl ⟨rfl, rfl⟩
  | some s =>
      obtain ⟨token, hfirst, htokens⟩ := tokens_some isDelim s
      exact .inr ⟨token, (strsep isDelim (some s)).2, Prod.ext hfirst rfl, htokens⟩

theorem splitPast_eq (spare : Nat) (cur : Option Bytes) :
    splitPast spare cur =
      if (tokens isDelim cur).length < spare then .ret (argList 0 (tokens isDelim cur))
      else .fault .outOfBounds := by
  induction spare generalizing cur with
  | zero => rfl
  | succ spare ih =>
      rcases tokens_step cur with ⟨rfl, htokens⟩ | ⟨token, next, hnext, htokens⟩
      · rfl
      · rw [splitPast, hnext, htokens]
        simp only [ih, List.length_cons, Nat.add_lt_add_iff_right]
        split
        · simp [argList]
        · simp

/-- The loop stores the tokens and the final NULL, or runs over the end of what can be overwritten. -/
theorem splitArgs_eq (spare room : Nat) (cur : Option Bytes) :
    splitArgs spare room cur =
      if (tokens isDelim cur).length < room + spare then .ret (argList room (tokens isDelim cur))
      else .fault .outOfBounds := by
  induction room generalizing cur with
  | zero => rw [splitArgs, splitPast_eq, Nat.zero_add]
  | succ room ih =>
      rcases tokens_step cur with ⟨rfl, htokens⟩ | ⟨token, next, hnext, htokens⟩
      · rw [htokens, List.length_nil, if_pos (by omega)]
        rfl
      · rw [splitArgs, hnext, htokens]
        simp only [ih, List.length_cons, Nat.add_right_comm room 1 spare, Nat.add_lt_add_iff_right]
        split
        · simp [argList]
        · simp

theorem argList_splitOnP (slots : Nat) (cmd : Bytes) :
    ∃ name more, argList slots (cmd.splitOnP isDelim) = some name :: more := by
  obtain ⟨name, rest, hsplit⟩ := List.exists_cons_of_ne_nil (List.splitOnP_ne_nil isDelim cmd)
  rw [argList, hsplit, List.map_cons, List.cons_append]
  exact ⟨name, _, rfl⟩

def EndsInCrLf (cmd : Bytes) : Prop :=
  2 ≤ cmd.length ∧ cmd[cmd.length - 2]? = some 13 ∧ cmd[cmd.length - 1]? = some 10

instance (cmd : Bytes) : Decidable (EndsInCrLf cmd) :=
  inferInstanceAs (Decidable (2 ≤ cmd.length ∧ cmd[cmd.length - 2]? = some 13 ∧ cmd[cmd.length - 1]? = some 10))

theorem endsInCrLf_append (front : Bytes) : EndsInCrLf (front ++ [13, 10]) := by
  refine ⟨by simp, ?_, ?_⟩
  · simp
  · simp

/-- The commands that reach a task whatever lies behind the array: they pass the assertions, and their arguments
and the final NULL fit. -/
def Accepted (cmd : Bytes) : Prop := EndsInCrLf cmd ∧ cmd.countP isDelim ≤ 254

instance (cmd : Bytes) : Decidable (Accepted cmd) :=
  inferInstanceAs (Decidable (EndsInCrLf cmd ∧ cmd.countP isDelim ≤ 254))

theorem handleCmd_eq (spare : Nat) (dl : Option TaskLib) (cmd : Bytes) :
    handleCmd spare dl cmd =
      if EndsInCrLf cmd then splitArgs spare cmdargSlots (some cmd) >>= callTask dl else .fault .assertion := by
  by_cases hlen : 2 ≤ cmd.length
  · by_cases hcr : cmd[cmd.length - 2]? = some 13
    · by_cases hlf : cmd[cmd.length - 1]? = some 10
      · have hend : EndsInCrLf cmd := ⟨hlen, hcr, hlf⟩
        rw [if_pos hend, handleCmd, Outcome.require_of hlen, Outcome.require_of hcr, Outcome.require_of hlf]
        rfl
      · have hend : ¬EndsInCrLf cmd := fun h => hlf h.2.2
        rw [if_neg hend, handleCmd, Outcome.require_of hlen, Outcome.require_of hcr, Outcome.require_of_not hlf]
        rfl
    · have hend : ¬EndsInCrLf cmd := fun h => hcr h.2.1
      rw [if_neg hend, handleCmd, Outcome.require_of hlen, Outcome.require_of_not hcr]
      rfl
  · have hend : ¬EndsInCrLf cmd := fun h => hlen h.1
    rw [if_neg hend, handleCmd, Outcome.require_of_not hlen]
    rfl

theorem splitArgs_command (spare : Nat) (cmd : Bytes) :
    splitArgs spare cmdargSlots (some cmd) =
      if cmd.countP isDelim ≤ 254 + spare then .ret (argList cmdargSlots (cmd.splitOnP isDelim))
      else .fault .outOfBounds := by
  have hiff : (tokens isDelim (some cmd)).length < cmdargSlots + spare ↔ cmd.countP isDelim ≤ 254 + spare := by
    rw [tokens, length_splitOnP, cmdargSlots]
    omega
  rw [splitArgs_eq]
  by_cases hle : cmd.countP isDelim ≤ 254 + spare
  · rw [if_pos (hiff.mpr hle), if_pos hle, tokens]
  · rw [if_neg (fun h => hle (hiff.mp h)), if_neg hle]

theorem handleCmd_of_le {spare : Nat} {cmd : Bytes} (hend : EndsInCrLf cmd) (hdelims : cmd.countP isDelim ≤ 254 + spare)
    (dl : Option TaskLib) : handleCmd spare dl cmd = callTask dl (argList cmdargSlots (cmd.splitOnP isDelim)) := by
  rw [handleCmd_eq, if_pos hend, splitArgs_command, if_pos hdelims, Outcome.ret_bind]

theorem handleCmd_of_accepted {cmd : Bytes} (h : Accepted cmd) (spare : Nat) (dl : Option TaskLib) :
    handleCmd spare dl cmd = callTask dl (argList cmdargSlots (cmd.splitOnP isDelim)) :=
  handleCmd_of_le h.1 (Nat.le_add_right_of_le h.2) dl

theorem handleCmd_of_not_crLf {cmd : Bytes} (h : ¬EndsInCrLf cmd) (spare : Nat) (dl : Option TaskLib) :
    handleCmd spare dl cmd = .fault .assertion := by
  rw [handleCmd_eq, if_neg h]

/-! ### The splitting loop -/

/-- The loop stores inside `cmdarg_list`, and leaves there the substrings between consecutive delimiters, in
order, and a NULL behind them. -/
def ArgsStored (cmd : Bytes) : Prop :=
  ∃ args cmdargList, Split isDelim cmd args ∧ (∀ spare, splitArgs spare cmdargSlots (some cmd) = .ret cmdargList) ∧
    cmdargList.length = cmdargSlots ∧ args.map some ++ [none] <+: cmdargList ∧
    ∃ name more, cmdargList = some name :: more

theorem argList_prefix {slots : Nat} {args : List Bytes} (hroom : args.length < slots) :
    args.map some ++ [none] <+: argList slots args ∧ (argList slots args).length = slots := by
  refine ⟨⟨List.replicate (slots - (args.length + 1)) none, ?_⟩, ?_⟩
  · rw [argList, List.append_assoc, List.singleton_append]
  · rw [argList, List.length_append, List.length_map, List.length_cons, List.length_replicate]
    omega

theorem argsStored_of_le {cmd : Bytes} (hdelims : cmd.countP isDelim ≤ 254) : ArgsStored cmd := by
  have hroom : (cmd.splitOnP isDelim).length < cmdargSlots := by
    rw [length_splitOnP, cmdargSlots]
    omega
  obtain ⟨hfilled, hlength⟩ := argList_prefix hroom
  refine ⟨_, _, split_splitOnP isDelim cmd, fun spare => ?_, hlength, hfilled, argList_splitOnP cmdargSlots cmd⟩
  rw [splitArgs_command, if_pos (Nat.le_add_right_of_le hdelims)]

theorem not_argsStored {cmd : Bytes} (hdelims : 254 < cmd.countP isDelim) : ¬ArgsStored cmd := by
  rintro ⟨args, cmdargList, -, hret, -⟩
  have hnone := hret 0
  rw [splitArgs_command, if_neg (Nat.not_le.mpr hdelims)] at hnone
  contradiction

/-- **The argument list.** The splitting loop keeps to its array exactly for at most 254 delimiters. -/
theorem args_stored_iff (cmd : Bytes) : ArgsStored cmd ↔ cmd.countP isDelim ≤ 254 :=
  ⟨fun hstored => Nat.not_lt.mp fun hmany => not_argsStored hmany hstored, argsStored_of_le⟩

/-- 253 colons and CR LF: one entry too many. -/
theorem delimiters_overrun_args :
    NulFree (List.replicate 253 58 ++ [13, 10]) ∧ (List.replicate 253 58 ++ [13, 10] : Bytes).length ≤ recvBuffLen - 1 ∧
      EndsInCrLf (List.replicate 253 58 ++ [13, 10]) ∧ ¬ArgsStored (List.replicate 253 58 ++ [13, 10]) := by
  refine ⟨fun hnul => ?_, ?_, endsInCrLf_append _, not_argsStored ?_⟩
  · rcases List.mem_append.mp hnul with hnul | hnul
    · exact absurd (List.eq_of_mem_replicate hnul) (by decide)
    · exact absurd hnul (by decide)
  · rw [List.length_append, List.length_replicate]
    decide
  · have hcolon : isDelim 58 = true := by decide
    have hend : List.countP isDelim [13, 10] = 2 := by decide
    rw [List.countP_append, List.countP_replicate, if_pos hcolon, hend]
    decide

end RemoteCtrl
