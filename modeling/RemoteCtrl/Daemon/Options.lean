import RemoteCtrl.Foundation.CString
import RemoteCtrl.Foundation.Transition

/-!
# The options of the daemon

`main` scans its command line with `getopt_long`, whose two tables and switch are here as the source has them.
An option is given by a letter or by a long name, which may be cut short where it stays unique, and with or
without a value; `getopt_long` answers with the `val` of the entry it matches. The switch can only clear
`bIsDaemon`, which starts clear, and `bRedirect`, which starts set, so the last value given decides either of
them only as far as it does not ask for the opposite.
-/

namespace RemoteCtrl.Daemon

open CProgram CProgram.Transition

/-! ### The tables -/

structure LongOption where
  name : Bytes
  hasArg : Bool
  val : UInt8
  deriving DecidableEq, Repr

def shortopt : Bytes := ascii "d:r:i:o:h"

def longOptions : List LongOption :=
  [{ name := ascii "daemon", hasArg := true, val := code 'b' },
    { name := ascii "redirect", hasArg := true, val := code 'r' },
    { name := ascii "interval", hasArg := true, val := code 'i' },
    { name := ascii "remote", hasArg := true, val := code 'o' },
    { name := ascii "single", hasArg := true, val := code 's' },
    { name := ascii "help", hasArg := false, val := code 'h' }]

inductive Spelling
  | short (c : UInt8)
  | long (name : Bytes)
  deriving DecidableEq, Repr

/-- An option as it stands on the command line. -/
structure Given where
  spelling : Spelling
  value : Option Bytes
  deriving DecidableEq, Repr

/-- Whether the letter takes a value, if it is an option at all. -/
def findShort (c : UInt8) : Option Bool :=
  if c = code ':' ∨ c = code ';' then none
  else
    match shortopt.dropWhile (· ≠ c) with
    | [] => none
    | _ :: rest => some (rest.head? == some (code ':'))

/-- The entry of that name, or the only one whose name begins so. -/
def findLong (name : Bytes) : Option LongOption :=
  match longOptions.find? (·.name == name) with
  | some entry => some entry
  | none =>
      match longOptions.filter (name.isPrefixOf ·.name) with
      | [entry] => some entry
      | _ => none

/-- Whether a value has to follow, and the character that stands for the option. -/
def Spelling.entry : Spelling → Option (Bool × UInt8)
  | .short c => (findShort c).map fun hasArg => (hasArg, c)
  | .long name => (findLong name).map fun entry => (entry.hasArg, entry.val)

/-- The character `getopt_long` returns, and `optarg` where it is set. -/
def getoptLong (given : Given) : UInt8 × Bytes :=
  match given.spelling.entry, given.value with
  | some (true, val), some optarg => (val, optarg)
  | some (false, val), none => (val, [])
  | _, _ => (code '?', [])

/-! ### The switch -/

structure Settings where
  bIsDaemon : Int := 0
  bRedirect : Int := 1
  bSingle : Int := 0
  restartInterval : Int := 10
  deriving DecidableEq, Repr

/-- `*optarg == '0'`. -/
def isOff (optarg : Bytes) : Bool := optarg.head? == some (code '0')

/-- One turn of the loop; `none` is `exit(0)`. -/
def Settings.apply (s : Settings) (opt : UInt8) (optarg : Bytes) : Option Settings :=
  if opt = code 'd' then some (if isOff optarg then { s with bIsDaemon := 0 } else s)
  else if opt = code 'r' then some (if isOff optarg then { s with bRedirect := 0 } else s)
  else if opt = code 'i' then
    let restartInterval := toInt (strtol optarg).1
    if restartInterval < 1 ∨ (strtol optarg).2 ≠ [] then none else some { s with restartInterval }
  else if opt = code 's' then some { s with bSingle := if isOff optarg then 0 else toInt (strtol optarg).1 }
  else if opt = code 'h' then some s
  else if opt = code ':' ∨ opt = code '?' then none
  -- 'b' and 'o' have no case
  else some s

def Settings.step (s : Settings) (given : Given) : Option Settings :=
  s.apply (getoptLong given).1 (getoptLong given).2

def scan (options : List Given) : Option Settings := run Settings.step {} options

/-! ### What was asked for -/

def Spelling.names (short : UInt8) (long : Bytes) : Spelling → Bool
  | .short c => c == short
  | .long name => (findLong name).any (·.name == long)

def Given.valueOf (short : UInt8) (long : Bytes) (given : Given) : Option Bytes :=
  if given.spelling.names short long then given.value else none

/-- The values given to an option, in their order. -/
def daemonValues (options : List Given) : List Bytes := options.filterMap (Given.valueOf (code 'd') (ascii "daemon"))

def redirectValues (options : List Given) : List Bytes :=
  options.filterMap (Given.valueOf (code 'r') (ascii "redirect"))

/-- The setting the last value asks for. -/
def asked (initial : Bool) (values : List Bytes) : Bool :=
  match values.getLast? with
  | none => initial
  | some value => !isOff value

def LastWins (options : List Given) (s : Settings) : Prop :=
  (s.bIsDaemon ≠ 0 ↔ asked false (daemonValues options) = true) ∧
    (s.bRedirect ≠ 0 ↔ asked true (redirectValues options) = true)

instance (options : List Given) (s : Settings) : Decidable (LastWins options s) :=
  inferInstanceAs (Decidable (_ ∧ _))

/-! ### What the tables accept -/

theorem findLong_mem {name : Bytes} {entry : LongOption} (hfound : findLong name = some entry) :
    entry ∈ longOptions := by
  rw [findLong] at hfound
  split at hfound
  · next hexact => exact Option.some.inj hfound ▸ List.mem_of_find?_eq_some hexact
  · split at hfound
    · next hunique =>
        have hmem := List.mem_filter.mp (hunique ▸ List.mem_singleton_self _)
        exact Option.some.inj hfound ▸ hmem.1
    · cases hfound

/-- An option is accepted when it matches an entry and has a value exactly if the entry wants one. -/
theorem getoptLong_accepted {given : Given} (haccepted : (getoptLong given).1 ≠ code '?') :
    ∃ hasArg val, given.spelling.entry = some (hasArg, val) ∧ (getoptLong given).1 = val ∧
      given.value = if hasArg then some (getoptLong given).2 else none := by
  rw [getoptLong] at haccepted ⊢
  split at haccepted
  · next val optarg hentry hvalue => exact ⟨true, val, hentry, rfl, hvalue⟩
  · next val hentry hvalue => exact ⟨false, val, hentry, rfl, hvalue⟩
  · exact absurd rfl haccepted

/-- Both tables know the redirection, with a value, under 'r' and nothing else under it. -/
theorem redirect_entry {spelling : Spelling} {hasArg : Bool} {val : UInt8}
    (hentry : spelling.entry = some (hasArg, val)) :
    spelling.names (code 'r') (ascii "redirect") = (val == code 'r') ∧ (val = code 'r' → hasArg = true) := by
  cases spelling with
  | short c =>
      obtain ⟨found, hfound, hsame⟩ := Option.map_eq_some_iff.mp hentry
      obtain ⟨rfl, rfl⟩ := Prod.mk.injEq .. ▸ hsame
      refine ⟨rfl, ?_⟩
      rintro rfl
      exact Option.some.inj (hfound.symm.trans (by decide))
  | long name =>
      obtain ⟨entry, hfound, hsame⟩ := Option.map_eq_some_iff.mp hentry
      obtain ⟨rfl, rfl⟩ := Prod.mk.injEq .. ▸ hsame
      have htable : ∀ entry ∈ longOptions, (entry.name == ascii "redirect") = (entry.val == code 'r') ∧
          (entry.val = code 'r' → entry.hasArg = true) := by decide
      rw [Spelling.names, hfound, Option.any_some]
      exact htable entry (findLong_mem hfound)

theorem valueOf_redirect {given : Given} (haccepted : (getoptLong given).1 ≠ code '?') :
    given.valueOf (code 'r') (ascii "redirect") =
      if (getoptLong given).1 = code 'r' then some (getoptLong given).2 else none := by
  obtain ⟨hasArg, val, hentry, hval, hvalue⟩ := getoptLong_accepted haccepted
  obtain ⟨hnames, hasValue⟩ := redirect_entry hentry
  rw [Given.valueOf, hnames, hval, hvalue]
  by_cases hr : val = code 'r'
  · simp [hr, hasValue hr]
  · simp [hr]

/-! ### What a run of the switch leaves -/

section
variable {s t : Settings} {opt : UInt8} {optarg : Bytes}

/-- The switch with a character that has nothing to do with the two flags. -/
theorem apply_other (happly : s.apply opt optarg = some t) (hd : opt ≠ code 'd') (hr : opt ≠ code 'r') :
    opt ≠ code '?' ∧ t.bIsDaemon = s.bIsDaemon ∧ t.bRedirect = s.bRedirect ∧
      (1 ≤ s.restartInterval → 1 ≤ t.restartInterval) := by
  rw [Settings.apply, if_neg hd, if_neg hr] at happly
  split at happly
  · next hi =>
      simp only [Option.ite_none_left_eq_some, Option.some.injEq, not_or, Int.not_lt] at happly
      obtain ⟨⟨hpos, _⟩, rfl⟩ := happly
      exact ⟨hi ▸ by decide, rfl, rfl, fun _ => hpos⟩
  · split at happly
    · next hs =>
        obtain rfl := Option.some.inj happly
        exact ⟨hs ▸ by decide, rfl, rfl, id⟩
    · split at happly
      · next hh =>
          obtain rfl := Option.some.inj happly
          exact ⟨hh ▸ by decide, rfl, rfl, id⟩
      · split at happly
        · cases happly
        · next hquestion =>
            obtain rfl := Option.some.inj happly
            exact ⟨fun h => hquestion (.inr h), rfl, rfl, id⟩

/-- The scan goes on with a character other than '?', clears a flag under the flag's own character only, and
takes no interval that is not positive. -/
theorem apply_frame (happly : s.apply opt optarg = some t) :
    opt ≠ code '?' ∧ t.bIsDaemon = (if opt = code 'd' ∧ isOff optarg then 0 else s.bIsDaemon) ∧
      t.bRedirect = (if opt = code 'r' ∧ isOff optarg then 0 else s.bRedirect) ∧
      (1 ≤ s.restartInterval → 1 ≤ t.restartInterval) := by
  by_cases hd : opt = code 'd'
  · subst hd
    have hr : code 'd' ≠ code 'r' := by decide
    rw [Settings.apply, if_pos rfl, Option.some.injEq] at happly
    subst happly
    refine ⟨by decide, ?_⟩
    cases isOff optarg <;> simp [hr]
  · by_cases hr : opt = code 'r'
    · subst hr
      rw [Settings.apply, if_neg hd, if_pos rfl, Option.some.injEq] at happly
      subst happly
      refine ⟨by decide, ?_⟩
      cases isOff optarg <;> simp [hd]
    · rw [if_neg (mt And.left hd), if_neg (mt And.left hr)]
      exact apply_other happly hd hr

end

/-- The switch clears `bRedirect`. -/
def clearsRedirect (given : Given) : Bool := (getoptLong given).1 == code 'r' && isOff (getoptLong given).2

section
variable {options : List Given} {s : Settings} (hscan : scan options = some s)

include hscan

theorem scan_accepted {given : Given} (hgiven : given ∈ options) : (getoptLong given).1 ≠ code '?' := by
  obtain ⟨t, u, hstep⟩ := exists_step_of_mem hgiven hscan
  exact (apply_frame hstep).1

theorem scan_bIsDaemon : s.bIsDaemon = 0 := by
  have hclear : ∀ s given t, s.bIsDaemon = 0 → Settings.step s given = some t → t.bIsDaemon = 0 := by
    intro s given t hinv hstep
    rw [(apply_frame hstep).2.1, hinv, ite_self]
  exact run_invariant hclear hscan rfl

theorem scan_restartInterval : 1 ≤ s.restartInterval := by
  have hpos : ∀ s given t, 1 ≤ s.restartInterval → Settings.step s given = some t → 1 ≤ t.restartInterval :=
    fun s given t hinv hstep => (apply_frame hstep).2.2.2 hinv
  exact run_invariant hpos hscan (by decide)

theorem scan_bRedirect : s.bRedirect = if (redirectValues options).any isOff then 0 else 1 := by
  have hclears : ∀ s given t, Settings.step s given = some t →
      t.bRedirect = if clearsRedirect given then 0 else s.bRedirect := by
    intro s given t hstep
    simpa [clearsRedirect] using (apply_frame hstep).2.2.1
  have hvalues : redirectValues options = options.filterMap fun given =>
      if (getoptLong given).1 = code 'r' then some (getoptLong given).2 else none :=
    List.filterMap_congr fun given hgiven => valueOf_redirect (scan_accepted hscan hgiven)
  have hany : (redirectValues options).any isOff = options.any clearsRedirect := by
    rw [hvalues, List.any_filterMap]
    congr 1
    funext given
    by_cases hr : (getoptLong given).1 = code 'r' <;> simp [clearsRedirect, hr]
  rw [hany]
  exact run_one_way hclears hscan

end

/-! ### The last value wins -/

theorem asked_iff_any {values : List Bytes} :
    (values.any isOff = false ↔ asked true values = true) ↔
      ((∃ value ∈ values, isOff value = true) → ∀ value, values.getLast? = some value → isOff value = true) := by
  rw [asked]
  cases hlast : values.getLast? with
  | none =>
      obtain rfl := List.getLast?_eq_none_iff.mp hlast
      simp
  | some last =>
      have hmem : last ∈ values := List.mem_of_getLast? hlast
      cases hoff : isOff last with
      | true =>
          have hany : values.any isOff = true := List.any_eq_true.mpr ⟨last, hmem, hoff⟩
          simp [hany, hoff]
      | false => simp [hoff]

/-- Whatever options are accepted, in whatever spelling and order: the two settings are what the last values ask
for exactly when the daemon is not asked for and the redirection is not asked for again after it has been
turned off. -/
theorem last_wins_iff (options : List Given) (s : Settings) (hscan : scan options = some s) :
    LastWins options s ↔
      (∀ value, (daemonValues options).getLast? = some value → isOff value = true) ∧
        ((∃ value ∈ redirectValues options, isOff value = true) →
          ∀ value, (redirectValues options).getLast? = some value → isOff value = true) := by
  have hdaemon : (s.bIsDaemon ≠ 0 ↔ asked false (daemonValues options) = true) ↔
      ∀ value, (daemonValues options).getLast? = some value → isOff value = true := by
    rw [scan_bIsDaemon hscan, asked]
    cases (daemonValues options).getLast? <;> simp
  have hredirect : s.bRedirect ≠ 0 ↔ (redirectValues options).any isOff = false := by
    rw [scan_bRedirect hscan]
    cases (redirectValues options).any isOff <;> simp
  rw [LastWins, hdaemon, hredirect, asked_iff_any]

/-- Given `-r 1 --daemon=0 --inter=5 -h --redirect=0`. -/
theorem last_wins_redirect_off :
    LastWins [⟨.short (code 'r'), some (ascii "1")⟩, ⟨.long (ascii "daemon"), some (ascii "0")⟩,
      ⟨.long (ascii "inter"), some (ascii "5")⟩, ⟨.short (code 'h'), none⟩,
      ⟨.long (ascii "redirect"), some (ascii "0")⟩] { bRedirect := 0, restartInterval := 5 } :=
  (last_wins_iff _ _ (by decide)).mpr (by decide)

/-- `-d 1` does not make a daemon. -/
theorem daemon_option_ignored : ¬∀ options s, scan options = some s → LastWins options s := by
  intro hclaim
  have hlast := hclaim [⟨.short (code 'd'), some (ascii "1")⟩] {} (by decide)
  exact absurd hlast (by decide)

end RemoteCtrl.Daemon
