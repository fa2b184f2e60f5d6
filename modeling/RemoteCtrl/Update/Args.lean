import RemoteCtrl.Session.Dispatch

/-!
# The arguments of an update command

The scan at the head of `DoUpdate`: a chain of prefix tests on every argument up to NULL, the last match of
a key winning. A command is built from fields; `HandleCmd` splits it at the delimiters, which leaves two
empty arguments behind the last field, and the scan recovers for each key the value of the last field that
carries it.
-/

namespace RemoteCtrl

open CProgram

structure UpdateArgs where
  cmdMain : Option Bytes := none
  argName : Option Bytes := none
  argSize : Option Bytes := none
  argMd5 : Option Bytes := none
  argKey : Option Bytes := none
  argVer : Option Bytes := none
  argIp : Option Bytes := none
  argPort : Option Bytes := none
  deriving DecidableEq, Repr

/-- The body of the scanning loop. The first test compares five of the six characters of its literal. -/
def scanArg (args : UpdateArgs) (curcmdentry : Bytes) : UpdateArgs :=
  if strncmp (ascii "update") curcmdentry 5 = 0 then { args with cmdMain := some curcmdentry }
  else if strncmp (ascii "name=") curcmdentry 5 = 0 then { args with argName := some (curcmdentry.drop 5) }
  else if strncmp (ascii "size=") curcmdentry 5 = 0 then { args with argSize := some (curcmdentry.drop 5) }
  else if strncmp (ascii "md5=") curcmdentry 4 = 0 then { args with argMd5 := some (curcmdentry.drop 4) }
  else if strncmp (ascii "key=") curcmdentry 4 = 0 then { args with argKey := some (curcmdentry.drop 4) }
  else if strncmp (ascii "ver=") curcmdentry 4 = 0 then { args with argVer := some (curcmdentry.drop 4) }
  else if strncmp (ascii "ip=") curcmdentry 3 = 0 then { args with argIp := some (curcmdentry.drop 3) }
  else if strncmp (ascii "port=") curcmdentry 5 = 0 then { args with argPort := some (curcmdentry.drop 5) }
  else args

def scanArgs : List (Option Bytes) → UpdateArgs → Outcome UpdateArgs
  | some curcmdentry :: more, args => scanArgs more (scanArg args curcmdentry)
  | none :: _, args => .ret args
  | [], _ => .fault .outOfBounds

/-- The scan of a list that NULL ends. -/
theorem scanArgs_terminated (tokens : List Bytes) (rest : List (Option Bytes)) :
    ∀ args : UpdateArgs, scanArgs (tokens.map some ++ none :: rest) args = .ret (tokens.foldl scanArg args) := by
  induction tokens with
  | nil => exact fun args => rfl
  | cons token tokens ih => exact fun args => ih (scanArg args token)

/-! ### Keys and fields -/

inductive Key
  | name | size | md5 | key | ver | ip | port
  deriving DecidableEq, Repr

def Key.literal : Key → Bytes
  | .name => ascii "name="
  | .size => ascii "size="
  | .md5 => ascii "md5="
  | .key => ascii "key="
  | .ver => ascii "ver="
  | .ip => ascii "ip="
  | .port => ascii "port="

def UpdateArgs.get (args : UpdateArgs) : Key → Option Bytes
  | .name => args.argName
  | .size => args.argSize
  | .md5 => args.argMd5
  | .key => args.argKey
  | .ver => args.argVer
  | .ip => args.argIp
  | .port => args.argPort

inductive Field
  | keyed (k : Key) (value : Bytes)
  | other (text : Bytes)
  deriving DecidableEq, Repr

def Field.text : Field → Bytes
  | .keyed k value => k.literal ++ value
  | .other text => text

def Field.key : Field → Option Key
  | .keyed k _ => some k
  | .other _ => none

def Field.valueOf (k : Key) : Field → Option Bytes
  | .keyed k' value => if k' = k then some value else none
  | .other _ => none

/-- A text that survives the splitting: no NUL and no delimiter. -/
def Plain (text : Bytes) : Prop := NulFree text ∧ ∀ c ∈ text, isDelim c = false

-- by running through the text, not through all bytes
instance (text : Bytes) : Decidable (∀ c ∈ text, isDelim c = false) :=
  List.decidableBAll (fun c => isDelim c = false) text

instance (text : Bytes) : Decidable (Plain text) :=
  inferInstanceAs (Decidable (NulFree text ∧ ∀ c ∈ text, isDelim c = false))

/-- What a sender may put between two colons: any value for a key, or a text no key of the chain matches. -/
def Field.Valid : Field → Prop
  | .keyed _ value => Plain value
  | .other text => Plain text ∧ ∀ k : Key, ¬ k.literal <+: text

def updateCommand (fields : List Field) : Bytes :=
  ascii "DoUpdate" ++ fields.flatMap (fun f => 58 :: f.text) ++ [13, 10]

def lastValue (k : Key) (fields : List Field) : Option Bytes := (fields.filterMap (Field.valueOf k)).getLast?

/-! ### One argument -/

theorem scan_literals :
    ascii "update" = [117, 112, 100, 97, 116, 101] ∧ ascii "name=" = [110, 97, 109, 101, 61] ∧
      ascii "size=" = [115, 105, 122, 101, 61] ∧ ascii "md5=" = [109, 100, 53, 61] ∧
      ascii "key=" = [107, 101, 121, 61] ∧ ascii "ver=" = [118, 101, 114, 61] ∧
      ascii "ip=" = [105, 112, 61] ∧ ascii "port=" = [112, 111, 114, 116, 61] := by
  decide

def UpdateArgs.set (args : UpdateArgs) (value : Bytes) : Key → UpdateArgs
  | .name => { args with argName := some value }
  | .size => { args with argSize := some value }
  | .md5 => { args with argMd5 := some value }
  | .key => { args with argKey := some value }
  | .ver => { args with argVer := some value }
  | .ip => { args with argIp := some value }
  | .port => { args with argPort := some value }

theorem UpdateArgs.get_set (args : UpdateArgs) (value : Bytes) (k k' : Key) :
    (args.set value k).get k' = if k = k' then some value else args.get k' := by
  cases k <;> cases k' <;> rfl

/-- No key of the chain shadows another: the five characters compared for `update` included. -/
theorem scanArg_keyed (args : UpdateArgs) (k : Key) (value : Bytes) :
    scanArg args (k.literal ++ value) = args.set value k := by
  obtain ⟨hupdate, hname, hsize, hmd5, hkey, hver, hip, hport⟩ := scan_literals
  simp only [scanArg, strncmp, strcmp_eq_zero, hupdate, hname, hsize, hmd5, hkey, hver, hip, hport]
  cases k <;>
    simp only [Key.literal, hname, hsize, hmd5, hkey, hver, hip, hport] <;>
    simp [UpdateArgs.set]

theorem scanArg_other (args : UpdateArgs) {text : Bytes} (h : ∀ k : Key, ¬ k.literal <+: text) (k : Key) :
    (scanArg args text).get k = args.get k := by
  have hname : strncmp (ascii "name=") text 5 ≠ 0 := fun h0 => h .name ((strncmp_eq_zero (by decide)).mp h0)
  have hsize : strncmp (ascii "size=") text 5 ≠ 0 := fun h0 => h .size ((strncmp_eq_zero (by decide)).mp h0)
  have hmd5 : strncmp (ascii "md5=") text 4 ≠ 0 := fun h0 => h .md5 ((strncmp_eq_zero (by decide)).mp h0)
  have hkey : strncmp (ascii "key=") text 4 ≠ 0 := fun h0 => h .key ((strncmp_eq_zero (by decide)).mp h0)
  have hver : strncmp (ascii "ver=") text 4 ≠ 0 := fun h0 => h .ver ((strncmp_eq_zero (by decide)).mp h0)
  have hip : strncmp (ascii "ip=") text 3 ≠ 0 := fun h0 => h .ip ((strncmp_eq_zero (by decide)).mp h0)
  have hport : strncmp (ascii "port=") text 5 ≠ 0 := fun h0 => h .port ((strncmp_eq_zero (by decide)).mp h0)
  rw [scanArg, if_neg hname, if_neg hsize, if_neg hmd5, if_neg hkey, if_neg hver, if_neg hip, if_neg hport]
  split <;> cases k <;> rfl

theorem scanArg_text (args : UpdateArgs) {f : Field} (h : f.Valid) (k : Key) :
    (scanArg args f.text).get k = (f.valueOf k).or (args.get k) := by
  cases f with
  | keyed k' value =>
      rw [Field.text, scanArg_keyed, UpdateArgs.get_set, Field.valueOf]
      split <;> rfl
  | other text => rw [Field.text, scanArg_other args h.2, Field.valueOf, Option.none_or]

/-! ### The whole scan -/

theorem scanArgs_fields {fields : List Field} (h : ∀ f ∈ fields, f.Valid) (rest : List (Option Bytes)) :
    ∀ args : UpdateArgs, ∃ found, scanArgs ((fields.map Field.text).map some ++ none :: rest) args = .ret found ∧
      ∀ k, found.get k = (lastValue k fields).or (args.get k) := by
  induction fields with
  | nil => exact fun args => ⟨args, rfl, fun k => rfl⟩
  | cons f fields ih =>
      intro args
      obtain ⟨found, hscan, hfound⟩ := ih (fun g hg => h g (List.mem_cons_of_mem f hg)) (scanArg args f.text)
      refine ⟨found, hscan, fun k => ?_⟩
      rw [hfound k, scanArg_text args (h f List.mem_cons_self), lastValue, lastValue]
      cases hvalue : f.valueOf k with
      | none => rw [List.filterMap_cons_none hvalue, Option.none_or]
      | some value =>
          rw [List.filterMap_cons_some hvalue, List.getLast?_cons]
          cases (fields.filterMap (Field.valueOf k)).getLast? <;> rfl

theorem Field.Valid.no_delim {f : Field} (h : f.Valid) : ∀ c ∈ f.text, isDelim c = false := by
  cases f with
  | keyed k value =>
      intro c hc
      rcases List.mem_append.mp hc with hc | hc
      · have hliteral : ∀ d ∈ k.literal, isDelim d = false := by
          cases k <;> decide
        exact hliteral c hc
      · exact h.2 c hc
  | other text => exact h.1.2

/-- The splitting recovers the fields and leaves two empty arguments, one for each of `\r` and `\n`. -/
theorem splitOnP_fields {fields : List Field} (h : ∀ f ∈ fields, f.Valid) :
    ∀ front : Bytes, (∀ c ∈ front, isDelim c = false) →
      (front ++ fields.flatMap (fun f : Field => 58 :: f.text) ++ [13, 10]).splitOnP isDelim =
        front :: fields.map Field.text ++ [[], []] := by
  induction fields with
  | nil =>
      intro front hfront
      have hlf : ([10] : Bytes).splitOnP isDelim = [[], []] := by decide
      rw [List.flatMap_nil, List.append_nil,
        List.splitOnP_append_cons_of_forall_mem hfront 13 (by decide) [10], hlf]
      rfl
  | cons f fields ih =>
      intro front hfront
      have hrest := ih (fun g hg => h g (List.mem_cons_of_mem f hg)) f.text (h f List.mem_cons_self).no_delim
      rw [List.flatMap_cons, List.append_assoc, List.append_assoc, List.cons_append, List.cons_append,
        List.splitOnP_append_cons_of_forall_mem hfront 58 (by decide), ← List.append_assoc, hrest]
      rfl

/-- The arguments of a command as fields: the command's own name in front, and the two empty ones. -/
def scanned (fields : List Field) : List Field := .other (ascii "DoUpdate") :: fields ++ [.other [], .other []]

theorem scanned_valid {fields : List Field} (h : ∀ f ∈ fields, f.Valid) : ∀ f ∈ scanned fields, f.Valid := by
  have hname : ∀ k : Key, ¬ k.literal <+: ascii "DoUpdate" := by
    intro k
    cases k <;> decide
  have hempty : ∀ k : Key, ¬ k.literal <+: ([] : Bytes) := by
    intro k
    cases k <;> decide
  intro f hf
  simp only [scanned, List.cons_append, List.mem_cons, List.mem_append, List.not_mem_nil, or_false,
    or_self] at hf
  rcases hf with rfl | hf | rfl
  · exact ⟨by decide, hname⟩
  · exact h f hf
  · exact ⟨by decide, hempty⟩

theorem lastValue_scanned (k : Key) (fields : List Field) : lastValue k (scanned fields) = lastValue k fields := by
  have hother (text : Bytes) : Field.valueOf k (.other text) = none := rfl
  rw [lastValue, lastValue, scanned, List.cons_append, List.filterMap_cons_none (hother _), List.filterMap_append,
    List.filterMap_cons_none (hother _), List.filterMap_cons_none (hother _), List.filterMap_nil, List.append_nil]

theorem splitOnP_updateCommand {fields : List Field} (h : ∀ f ∈ fields, f.Valid) :
    (updateCommand fields).splitOnP isDelim = (scanned fields).map Field.text := by
  rw [updateCommand, splitOnP_fields h _ (by decide), scanned, List.map_append]
  rfl

theorem scan_updateCommand {fields : List Field} (hvalid : ∀ f ∈ fields, f.Valid)
    (hdelims : (updateCommand fields).countP isDelim ≤ 254) :
    ∃ cmdargList args, (∀ spare dl, handleCmd spare dl (updateCommand fields) = callTask dl cmdargList) ∧
      scanArgs cmdargList {} = .ret args ∧ ∀ k, args.get k = lastValue k fields := by
  obtain ⟨args, hscan, hargs⟩ := scanArgs_fields (scanned_valid hvalid) _ {}
  refine ⟨argList cmdargSlots ((updateCommand fields).splitOnP isDelim), args, ?_, ?_, ?_⟩
  · exact handleCmd_of_accepted ⟨endsInCrLf_append _, hdelims⟩
  · rw [argList, splitOnP_updateCommand hvalid]
    exact hscan
  · intro k
    rw [hargs k, lastValue_scanned]
    cases k <;> exact Option.or_none

/-! ### Reordering -/

theorem length_valueOf (k : Key) (fields : List Field) :
    (fields.filterMap (Field.valueOf k)).length = (fields.filterMap Field.key).count k := by
  induction fields with
  | nil => rfl
  | cons f fields ih =>
      cases f with
      | keyed k' value =>
          by_cases hk : k' = k
          · simp [Field.valueOf, Field.key, hk, ih]
          · simp [Field.valueOf, Field.key, hk, ih]
      | other text =>
          have hkey : Field.key (.other text) = none := rfl
          have hvalue : Field.valueOf k (.other text) = none := rfl
          rw [List.filterMap_cons_none hkey, List.filterMap_cons_none hvalue, ih]

theorem lastValue_perm {fields fields' : List Field} (hperm : fields'.Perm fields)
    (hnodup : (fields.filterMap Field.key).Nodup) (k : Key) : lastValue k fields' = lastValue k fields := by
  have hvalues := hperm.filterMap (Field.valueOf k)
  have hcount := List.nodup_iff_count.mp hnodup k
  rw [← length_valueOf] at hcount
  rw [lastValue, lastValue]
  cases hcase : fields.filterMap (Field.valueOf k) with
  | nil =>
      rw [hcase] at hvalues
      rw [hvalues.eq_nil]
  | cons value more =>
      have hmore : more = [] := by
        rw [hcase, List.length_cons] at hcount
        exact List.eq_nil_of_length_eq_zero (by omega)
      subst hmore
      rw [hcase] at hvalues
      rw [List.perm_singleton.mp hvalues]

theorem countP_updateCommand_perm {fields fields' : List Field} (hperm : fields'.Perm fields) :
    (updateCommand fields').countP isDelim = (updateCommand fields).countP isDelim := by
  simp only [updateCommand, List.countP_append, (hperm.flatMap_right _).countP_eq]

/-- **Update command round trip.** Split by `HandleCmd` and scanned by `DoUpdate`, a command yields for every
key the value of its last field, and a reordering of fields with distinct keys yields the same values. -/
theorem update_command_round_trip {fields : List Field} (hvalid : ∀ f ∈ fields, f.Valid)
    (hdelims : (updateCommand fields).countP isDelim ≤ 254) :
    ∃ cmdargList args, (∀ spare dl, handleCmd spare dl (updateCommand fields) = callTask dl cmdargList) ∧
      scanArgs cmdargList {} = .ret args ∧ (∀ k, args.get k = lastValue k fields) ∧
      ∀ fields' : List Field, fields'.Perm fields → (fields.filterMap Field.key).Nodup →
        ∃ cmdargList' args', (∀ spare dl, handleCmd spare dl (updateCommand fields') = callTask dl cmdargList') ∧
          scanArgs cmdargList' {} = .ret args' ∧ ∀ k, args'.get k = args.get k := by
  obtain ⟨cmdargList, args, hhandle, hscan, hargs⟩ := scan_updateCommand hvalid hdelims
  refine ⟨cmdargList, args, hhandle, hscan, hargs, fun fields' hperm hnodup => ?_⟩
  have hvalid' : ∀ f ∈ fields', f.Valid := fun f hf => hvalid f (hperm.mem_iff.mp hf)
  have hdelims' : (updateCommand fields').countP isDelim ≤ 254 := countP_updateCommand_perm hperm ▸ hdelims
  obtain ⟨cmdargList', args', hhandle', hscan', hargs'⟩ := scan_updateCommand hvalid' hdelims'
  refine ⟨cmdargList', args', hhandle', hscan', fun k => ?_⟩
  rw [hargs' k, hargs k, lastValue_perm hperm hnodup k]

theorem update_command_round_trip_repeated :
    ∃ cmdargList args, (∀ spare dl, handleCmd spare dl (updateCommand [.keyed .name (ascii "a"),
        .other (ascii "names"), .keyed .name (ascii "update.tar.gz")]) = callTask dl cmdargList) ∧
      scanArgs cmdargList {} = .ret args ∧ args.argName = some (ascii "update.tar.gz") ∧ args.argIp = none := by
  have hother : ∀ k : Key, ¬ k.literal <+: ascii "names" := by intro k; cases k <;> decide
  have hvalid : ∀ f ∈ [Field.keyed .name (ascii "a"), .other (ascii "names"),
      .keyed .name (ascii "update.tar.gz")], f.Valid := by
    intro f hf
    simp only [List.mem_cons, List.not_mem_nil, or_false] at hf
    rcases hf with rfl | rfl | rfl
    · exact (by decide : Plain (ascii "a"))
    · exact ⟨by decide, hother⟩
    · exact (by decide : Plain (ascii "update.tar.gz"))
  obtain ⟨cmdargList, args, hhandle, hscan, hargs, _⟩ := update_command_round_trip hvalid (by decide)
  exact ⟨cmdargList, args, hhandle, hscan, hargs .name, hargs .ip⟩

end RemoteCtrl
