import RemoteCtrl.Service.Loop
import RemoteCtrl.Service.Listen
import RemoteCtrl.Foundation.Inet

/-!
# Discovery

The other branch of `LoopSocket`: a datagram that reads as `0x5a` is answered with the address and the port of the
listening socket, as a text. The network loses, duplicates and reorders datagrams, and anybody may send any; between
them the service goes on with everything else it does. The answers go in order to the senders of the probes received,
one each. All of them name the port the service listens on; the address they name is that of the socket, which is
bound to no address, and says nothing.
-/

namespace RemoteCtrl.Discovery

open CProgram CProgram.Transition

/-! ### Datagrams -/

structure Endpoint where
  ip : InAddr
  port : UInt16
  deriving DecidableEq, Repr

structure Datagram where
  sender : Endpoint
  bytes : Bytes
  deriving DecidableEq, Repr

/-- `int i = 0;` and the first four bytes of a datagram written over it, the lowest first. -/
def receivedInt (bytes : Bytes) : Int :=
  toInt ((bytes.getD 0 0).toNat + 256 * (bytes.getD 1 0).toNat + 65536 * (bytes.getD 2 0).toNat +
    16777216 * (bytes.getD 3 0).toNat)

/-- `sprintf(ack, "notifyaddr:ip=%s:port=%d", ...)`. -/
def notifyaddr (addr : Endpoint) : Bytes :=
  ascii "notifyaddr:ip=" ++ dotted addr.ip ++ ascii ":port=" ++ decimal addr.port.toNat

/-! ### The service in its network -/

/-- `sent` and `received` are a record: all that was ever sent, and every datagram `recvfrom` has returned. -/
structure State where
  service : Service.State
  inFlight : List Datagram
  fromAddr : Endpoint
  acks : List (Endpoint × Bytes)
  sent : List Datagram
  received : List Datagram

/-- `from_addr` has no value yet. -/
def start (unset : Endpoint) : State where
  service := Service.start
  inFlight := []
  fromAddr := unset
  acks := []
  sent := []
  received := []

/-- `getsockname` may fail; `listen_addr` then is what it was before. -/
inductive Event
  | send (d : Datagram)
  | lose (n : Nat)
  | duplicate (n : Nat)
  | recvfrom (n : Nat)
  | answer (failed : Option Endpoint)
  | service (e : Service.Event)

/-- The statements of the service that are events of their own here. -/
def ofDiscovery : Service.Event → Bool
  | .run (.recvfrom (.ok _)) => true
  | .run .answer => true
  | _ => false

/-- `listenAddr` is what the listening socket is bound to. -/
def step (listenAddr : Endpoint) (s : State) : Event → Option State
  | .send d => some { s with inFlight := s.inFlight ++ [d], sent := s.sent ++ [d] }
  | .lose n => some { s with inFlight := s.inFlight.eraseIdx n }
  | .duplicate n => (s.inFlight[n]?).map fun d => { s with inFlight := s.inFlight ++ [d] }
  | .recvfrom n => do
      let d ← s.inFlight[n]?
      let service ← Service.step s.service (.run (.recvfrom (.ok (receivedInt d.bytes))))
      return { s with
        service, inFlight := s.inFlight.eraseIdx n, fromAddr := d.sender, received := s.received ++ [d] }
  | .answer failed => do
      let service ← Service.step s.service (.run .answer)
      return { s with service, acks := s.acks ++ [(s.fromAddr, notifyaddr (failed.getD listenAddr))] }
  | .service e => if ofDiscovery e then none else (Service.step s.service e).map fun service => { s with service }

/-! ### The probe -/

theorem toInt_eq_iff {n : Nat} (hn : n < 4294967296) {m : Nat} (hm : m < 2147483648) :
    toInt n = m ↔ n = m := by
  rw [toInt]
  rcases Nat.lt_or_ge n 2147483648 with hsmall | hlarge
  · rw [Int.bmod_eq_of_le (by omega) (by omega)]
    omega
  · have hnegative : (n : Int).bmod 4294967296 = n - 4294967296 := by
      rw [← Int.sub_bmod_right, Int.bmod_eq_of_le (by omega) (by omega)]
      rfl
    rw [hnegative]
    omega

/-- 0x5a, and zeros as far as four bytes go. -/
def Probe (bytes : Bytes) : Prop := bytes ≠ [] ∧ bytes.take 4 <+: [0x5a, 0, 0, 0]

instance (bytes : Bytes) : Decidable (Probe bytes) :=
  inferInstanceAs (Decidable (bytes ≠ [] ∧ bytes.take 4 <+: [0x5a, 0, 0, 0]))

/-- The test of the program. -/
theorem receivedInt_eq_iff (bytes : Bytes) : receivedInt bytes = 0x5a ↔ Probe bytes := by
  have hlt (c : UInt8) : c.toNat < 256 := c.toNat_lt
  have hzero (c : UInt8) : c = 0 ↔ c.toNat = 0 := by
    rw [← UInt8.toNat_inj]
    rfl
  have hprobe (c : UInt8) : c = 0x5a ↔ c.toNat = 90 := by
    rw [← UInt8.toNat_inj]
    rfl
  have hb0 := hlt (bytes.getD 0 0)
  have hb1 := hlt (bytes.getD 1 0)
  have hb2 := hlt (bytes.getD 2 0)
  have hb3 := hlt (bytes.getD 3 0)
  have hvalue : receivedInt bytes = 0x5a ↔
      bytes.getD 0 0 = 0x5a ∧ bytes.getD 1 0 = 0 ∧ bytes.getD 2 0 = 0 ∧ bytes.getD 3 0 = 0 := by
    have hint := toInt_eq_iff (n := (bytes.getD 0 0).toNat + 256 * (bytes.getD 1 0).toNat +
      65536 * (bytes.getD 2 0).toNat + 16777216 * (bytes.getD 3 0).toNat) (by omega) (m := 90) (by omega)
    simp only [Nat.cast_add, Nat.cast_mul, Nat.cast_ofNat] at hint
    rw [hzero, hzero, hzero, hprobe]
    refine Iff.trans hint ?_
    omega
  rw [hvalue, Probe]
  clear hvalue hb0 hb1 hb2 hb3
  rcases bytes with - | ⟨a, - | ⟨b, - | ⟨c, - | ⟨d, more⟩⟩⟩⟩
  · simp
  · simp
  · simp
  · simp
  · simp

/-! ### The text of an answer -/

theorem length_dotted_le (ip : InAddr) : (dotted ip).length ≤ 15 := by
  have hbyte (b : UInt8) : (decimal b.toNat).length ≤ 3 := length_decimal_le (by have := b.toNat_lt; omega)
  have h1 := hbyte ip.byte1
  have h2 := hbyte ip.byte2
  have h3 := hbyte ip.byte3
  have h4 := hbyte ip.byte4
  simp only [dotted, List.length_append, List.length_cons]
  omega

/-- The text and its NUL fit `ack[64]`, whatever the address. -/
theorem length_notifyaddr_le (addr : Endpoint) : (notifyaddr addr).length + 1 ≤ 64 := by
  have hip := length_dotted_le addr.ip
  have hport : (decimal addr.port.toNat).length ≤ 5 := length_decimal_le (by have := addr.port.toNat_lt; omega)
  have hfront : (ascii "notifyaddr:ip=").length = 14 := by decide
  have hmiddle : (ascii ":port=").length = 6 := by decide
  simp only [notifyaddr, List.length_append]
  omega

theorem colon_not_mem_dotted (ip : InAddr) : (58 : UInt8) ∉ dotted ip := by
  have hdigits (n : Nat) : (58 : UInt8) ∉ decimal n := fun hmem => absurd (isDigit_decimal n 58 hmem) (by decide)
  simp only [dotted, List.mem_append, List.mem_cons, not_or]
  exact ⟨hdigits _, by decide, hdigits _, by decide, hdigits _, by decide, hdigits _⟩

/-- A text tells its address and its port. -/
theorem notifyaddr_injective {addr addr' : Endpoint} (heq : notifyaddr addr = notifyaddr addr') : addr = addr' := by
  have hport : ascii ":port=" = 58 :: ascii "port=" := by decide
  simp only [notifyaddr, hport, List.append_assoc, List.append_cancel_left_eq, List.cons_append] at heq
  have hfront (a : Endpoint) (rest : Bytes) :
      (dotted a.ip ++ 58 :: rest).takeWhile (· ≠ 58) = dotted a.ip := by
    rw [List.takeWhile_append_of_pos]
    · simp
    · intro c hc
      have hne : c ≠ 58 := fun h => colon_not_mem_dotted a.ip (h ▸ hc)
      simpa using hne
  have hip : dotted addr.ip = dotted addr'.ip := by
    rw [← hfront addr _, heq, hfront addr']
  have hip' : addr.ip = addr'.ip := by rw [← inetAddr_dotted addr.ip, hip, inetAddr_dotted]
  rw [hip, List.append_cancel_left_eq, List.cons.injEq, List.append_cancel_left_eq] at heq
  have hnumber : addr.port = addr'.port := UInt16.toNat_inj.mp (decimal_injective heq.2)
  cases addr
  cases addr'
  exact congrArg₂ Endpoint.mk hip' hnumber

/-! ### Answers and probes -/

/-- The probes among the datagrams received. -/
def State.probes (s : State) : List Datagram := s.received.filter fun d => Probe d.bytes

/-- The probe of whom the answer is still to be sent. -/
def State.pending (s : State) : List Endpoint := if s.service.pc = .answer then [s.fromAddr] else []

structure Inv (s : State) : Prop where
  tally : s.probes.map Datagram.sender = s.acks.map Prod.fst ++ s.pending
  received : ∀ d ∈ s.received, d ∈ s.sent
  inFlight : ∀ d ∈ s.inFlight, d ∈ s.sent
  texts : ∀ a ∈ s.acks, ∃ addr, a.2 = notifyaddr addr

/-- Nothing else the service does comes to the answer, or leaves it. -/
theorem pc_answer_iff {s t : Service.State} {e : Service.Event} (hother : ofDiscovery e = false)
    (hstep : Service.step s e = some t) : t.pc = .answer ↔ s.pc = .answer := by
  obtain ⟨henabled, rfl⟩ := Service.step_eq_some.mp hstep
  cases e with
  | run stmt =>
      have hpc : s.pc = stmt.pc := henabled.2.1
      have hgoes : Service.Goes s stmt (Service.next s (.run stmt)).pc := Service.goes_exec hpc
      refine iff_of_false (fun hanswer => ?_) fun hanswer => ?_
      · rw [hanswer] at hgoes
        cases hgoes
        contradiction
      · rw [hanswer] at hpc
        cases stmt with
        | answer => contradiction
        | _ => simp only [Service.Stmt.pc, reduceCtorEq] at hpc
  | peerReset c => exact Iff.rfl
  | childExit p => exact Iff.rfl
  | sigchld => exact Iff.rfl
  | handler => exact Iff.rfl
  | waitpid r => exact Iff.rfl

theorem step_recvfrom {s t : Service.State} {i : Int} (hstep : Service.step s (.run (.recvfrom (.ok i))) = some t) :
    s.pc = .recvfrom ∧ t.pc = if i = 0x5a then .answer else .select := by
  obtain ⟨henabled, rfl⟩ := Service.step_eq_some.mp hstep
  exact ⟨henabled.2.1, rfl⟩

theorem step_answer {s t : Service.State} (hstep : Service.step s (.run .answer) = some t) :
    s.pc = .answer ∧ t.pc = .select := by
  obtain ⟨henabled, rfl⟩ := Service.step_eq_some.mp hstep
  exact ⟨henabled.2.1, rfl⟩

theorem Inv.start (unset : Endpoint) : Inv (start unset) where
  tally := rfl
  received := fun _ hd => absurd hd List.not_mem_nil
  inFlight := fun _ hd => absurd hd List.not_mem_nil
  texts := fun _ ha => absurd ha List.not_mem_nil

theorem Inv.step {listenAddr : Endpoint} {s t : State} {e : Event} (hinv : Inv s)
    (hstep : step listenAddr s e = some t) : Inv t := by
  cases e with
  | send d =>
      obtain rfl := Option.some.inj hstep
      refine ⟨hinv.tally, fun d' hd => List.mem_append_left _ (hinv.received d' hd), ?_, hinv.texts⟩
      intro d' hd
      exact (List.mem_append.mp hd).elim (fun h => List.mem_append_left _ (hinv.inFlight d' h))
        (List.mem_append_right _)
  | lose n =>
      obtain rfl := Option.some.inj hstep
      exact ⟨hinv.tally, hinv.received, fun d hd => hinv.inFlight d (List.mem_of_mem_eraseIdx hd), hinv.texts⟩
  | duplicate n =>
      obtain ⟨d, hd, rfl⟩ := Option.map_eq_some_iff.mp hstep
      refine ⟨hinv.tally, hinv.received, fun d' hd' => ?_, hinv.texts⟩
      rcases List.mem_append.mp hd' with h | h
      · exact hinv.inFlight d' h
      · rw [List.mem_singleton.mp h]
        exact hinv.inFlight d (List.mem_of_getElem? hd)
  | recvfrom n =>
      simp only [Discovery.step, Option.bind_eq_bind, Option.bind_eq_some_iff, Option.pure_def, Option.some.injEq] at hstep
      obtain ⟨d, hd, service, hservice, rfl⟩ := hstep
      obtain ⟨hbefore, hafter⟩ := step_recvfrom hservice
      have hsent : d ∈ s.sent := hinv.inFlight d (List.mem_of_getElem? hd)
      have htally : s.probes.map Datagram.sender = s.acks.map Prod.fst := by
        have hnone : s.pending = [] := by simp [State.pending, hbefore]
        rw [hinv.tally, hnone, List.append_nil]
      simp only [receivedInt_eq_iff] at hafter
      refine ⟨?_, ?_, fun d' hd' => hinv.inFlight d' (List.mem_of_mem_eraseIdx hd'), hinv.texts⟩
      · rw [State.probes] at htally
        by_cases hprobe : Probe d.bytes
        · simp [State.probes, State.pending, hafter, hprobe, htally]
        · simp [State.probes, State.pending, hafter, hprobe, htally]
      · intro d' hd'
        rcases List.mem_append.mp hd' with h | h
        · exact hinv.received d' h
        · rw [List.mem_singleton.mp h]
          exact hsent
  | answer failed =>
      simp only [Discovery.step, Option.bind_eq_bind, Option.bind_eq_some_iff, Option.pure_def, Option.some.injEq] at hstep
      obtain ⟨service, hservice, rfl⟩ := hstep
      obtain ⟨hbefore, hafter⟩ := step_answer hservice
      have hpending : s.pending = [s.fromAddr] := by simp [State.pending, hbefore]
      refine ⟨?_, hinv.received, hinv.inFlight, fun a ha => ?_⟩
      · show s.probes.map Datagram.sender = _
        rw [hinv.tally, hpending]
        simp [State.pending, hafter]
      · rcases List.mem_append.mp ha with h | h
        · exact hinv.texts a h
        · exact ⟨_, congrArg Prod.snd (List.mem_singleton.mp h)⟩
  | service e =>
      simp only [Discovery.step] at hstep
      split at hstep
      · contradiction
      · next hother =>
          obtain ⟨service, hservice, rfl⟩ := Option.map_eq_some_iff.mp hstep
          have hpc := pc_answer_iff (Bool.not_eq_true _ ▸ hother) hservice
          refine ⟨?_, hinv.received, hinv.inFlight, hinv.texts⟩
          show s.probes.map Datagram.sender = _
          rw [hinv.tally]
          simp only [State.pending, hpc]

theorem Inv.of_reaches {listenAddr unset : Endpoint} {s : State}
    (hreach : Reaches (Discovery.step listenAddr) (Discovery.start unset) s) : Inv s :=
  hreach.invariant (fun _ _ _ hinv hstep => hinv.step hstep) (Inv.start unset)

/-- **Every probe received is answered once, in order, and nothing else is.** A datagram received is a probe exactly if
its bytes begin as those of the probe do, and the text of an answer fits `ack[64]`, whatever `getsockname` has left in
the address. -/
theorem acks_answer_probes {listenAddr unset : Endpoint} {s : State}
    (hreach : Reaches (step listenAddr) (start unset) s) :
    (s.received.filter fun d => d.bytes ≠ [] ∧ d.bytes.take 4 <+: [0x5a, 0, 0, 0]).map Datagram.sender =
        s.acks.map Prod.fst ++ s.pending ∧
      (∀ d ∈ s.received, d ∈ s.sent) ∧ ∀ a ∈ s.acks, a.2.length + 1 ≤ 64 := by
  have hinv := Inv.of_reaches hreach
  refine ⟨hinv.tally, hinv.received, fun a ha => ?_⟩
  obtain ⟨addr, haddr⟩ := hinv.texts a ha
  rw [haddr]
  exact length_notifyaddr_le addr

def prober : Endpoint := ⟨⟨10, 0, 0, 7⟩, 5234⟩

/-- A datagram that is no probe, a probe, and the probe once more. -/
def probing : List Event :=
  [.send ⟨prober, [0x5a, 0, 0, 1]⟩, .send ⟨prober, [0x5a, 0, 0, 0]⟩, .duplicate 1,
    .service (.run (.select .broadcast)), .recvfrom 0, .service (.run (.select .broadcast)), .recvfrom 1, .answer none,
    .service (.run (.select .broadcast)), .recvfrom 0]

theorem probing_runs : ∃ s, run (step ⟨inaddrAny, .ofNat 4011⟩) (start prober) probing = some s ∧
    s.acks = [(prober, ascii "notifyaddr:ip=0.0.0.0:port=4011")] ∧ s.pending = [prober] := by
  have hacks : (run (step ⟨inaddrAny, .ofNat 4011⟩) (start prober) probing).map (fun s => (s.acks, s.pending)) =
      some ([(prober, ascii "notifyaddr:ip=0.0.0.0:port=4011")], [prober]) := by decide +kernel
  obtain ⟨s, hrun, hs⟩ := Option.map_eq_some_iff.mp hacks
  rw [Prod.mk.injEq] at hs
  exact ⟨s, hrun, hs⟩

/-- Of three datagrams two are probes, and another answer is due to the one prober. -/
theorem acks_answer_probes_pending : ∃ s, Reaches (step ⟨inaddrAny, .ofNat 4011⟩) (start prober) s ∧
    (s.received.filter fun d => d.bytes ≠ [] ∧ d.bytes.take 4 <+: [0x5a, 0, 0, 0]).map Datagram.sender =
      [prober, prober] := by
  obtain ⟨s, hrun, hacks, hpending⟩ := probing_runs
  have htally := (acks_answer_probes ⟨probing, hrun⟩).1
  rw [hacks, hpending] at htally
  exact ⟨s, ⟨probing, hrun⟩, htally⟩

/-! ### The port -/

/-- `getsockname` does not fail. -/
def Named (_ : State) : Event → Prop
  | .answer failed => failed = none
  | _ => True

def Texts (listenAddr : Endpoint) (s : State) : Prop := ∀ a ∈ s.acks, a.2 = notifyaddr listenAddr

theorem Texts.step {listenAddr : Endpoint} {s t : State} {e : Event} (htexts : Texts listenAddr s) (hnamed : Named s e)
    (hstep : step listenAddr s e = some t) : Texts listenAddr t := by
  cases e with
  | send d =>
      obtain rfl := Option.some.inj hstep
      exact htexts
  | lose n =>
      obtain rfl := Option.some.inj hstep
      exact htexts
  | duplicate n =>
      obtain ⟨d, -, rfl⟩ := Option.map_eq_some_iff.mp hstep
      exact htexts
  | recvfrom n =>
      simp only [Discovery.step, Option.bind_eq_bind, Option.bind_eq_some_iff, Option.pure_def, Option.some.injEq] at hstep
      obtain ⟨d, -, service, -, rfl⟩ := hstep
      exact htexts
  | answer failed =>
      simp only [Discovery.step, Option.bind_eq_bind, Option.bind_eq_some_iff, Option.pure_def, Option.some.injEq] at hstep
      obtain ⟨service, -, rfl⟩ := hstep
      intro a ha
      rcases List.mem_append.mp ha with h | h
      · exact htexts a h
      · rw [List.mem_singleton.mp h, show failed = none from hnamed, Option.getD_none]
  | service e =>
      simp only [Discovery.step] at hstep
      split at hstep
      · contradiction
      · obtain ⟨service, -, rfl⟩ := Option.map_eq_some_iff.mp hstep
        exact htexts

theorem Texts.of_run {listenAddr unset : Endpoint} {es : List Event} {s : State}
    (hrun : run (Discovery.step listenAddr) (start unset) es = some s)
    (hnamed : Along (Discovery.step listenAddr) Named (start unset) es) : Texts listenAddr s := by
  have hkeeps : ∀ s e t, Texts listenAddr s → Named s e → Discovery.step listenAddr s e = some t → Texts listenAddr t :=
    fun _ _ _ htexts hnamed hstep => htexts.step hnamed hstep
  exact run_invariant_along hkeeps hrun hnamed fun _ h => absurd h List.not_mem_nil

theorem port_in_range {env : InitEnv} (hstart : 0 ≤ (initSocket env Server.new.globals).ret) {port : Nat}
    (hbound : (initSocket env Server.new.globals).bound = some port) : serviceBasePort ≤ port ∧ port ≤ lastPort := by
  rcases initSocket_cases env Server.new.globals with
    ⟨-, -, hret, -⟩ | ⟨-, -, -, -, -, hret⟩ | ⟨-, q, hfind, hq, -, -⟩
  · omega
  · omega
  · have hmem : q ∈ searchPorts serviceBasePort := List.mem_of_find?_eq_some hfind
    have hrange : q ∈ List.range' serviceBasePort (lastPort + 1 - serviceBasePort) := hmem
    rw [List.mem_range'_1] at hrange
    have hlast : lastPort = 4111 := rfl
    have hbase : serviceBasePort = 4011 := rfl
    rw [hbound, boundPort_of_range (by omega) (by omega), Option.some.injEq] at hq
    omega

/-- **What a discovery tells.** After the first start every answer names the port that was bound, to a sender of a
probe, and no address that could be connected to. -/
theorem discovery_names_port {env : InitEnv} (hstart : 0 ≤ (initSocket env Server.new.globals).ret) {port : Nat}
    (hbound : (initSocket env Server.new.globals).bound = some port) {unset : Endpoint} {es : List Event} {s : State}
    (hrun : run (step ⟨inaddrAny, .ofNat port⟩) (start unset) es = some s)
    (hnamed : Along (step ⟨inaddrAny, .ofNat port⟩) Named (start unset) es) :
    ∀ a ∈ s.acks, (∃ d ∈ s.sent, d.sender = a.1 ∧ d.bytes ≠ [] ∧ d.bytes.take 4 <+: [0x5a, 0, 0, 0]) ∧
      a.2 = notifyaddr ⟨inaddrAny, .ofNat port⟩ ∧
      ∀ addr, a.2 = notifyaddr addr → addr.ip = inaddrAny ∧ addr.port.toNat = port := by
  intro a ha
  have hinv := Inv.of_reaches ⟨es, hrun⟩
  have htext : a.2 = notifyaddr ⟨inaddrAny, .ofNat port⟩ := Texts.of_run hrun hnamed a ha
  refine ⟨?_, htext, fun addr haddr => ?_⟩
  · have hpeer : a.1 ∈ s.probes.map Datagram.sender := by
      rw [hinv.tally]
      exact List.mem_append_left _ (List.mem_map_of_mem ha)
    obtain ⟨d, hd, hsender⟩ := List.mem_map.mp hpeer
    obtain ⟨hreceived, hprobe⟩ := List.mem_filter.mp hd
    exact ⟨d, hinv.received d hreceived, hsender, of_decide_eq_true hprobe⟩
  · obtain ⟨-, hhigh⟩ := port_in_range hstart hbound
    have hlast : lastPort = 4111 := rfl
    rw [← notifyaddr_injective (htext.symm.trans haddr)]
    refine ⟨rfl, ?_⟩
    rw [UInt16.toNat_ofNat']
    omega

theorem first_start :
    (initSocket (startWith true) Server.new.globals).ret = 3 ∧
      (initSocket (startWith true) Server.new.globals).bound = some 4011 := by
  have hsearch (port : Nat) : portSearch (startWith true).binds port = { tried := [port], bound := some port, port } := by
    have hbinds : (startWith true).binds port = true := rfl
    rw [portSearch, if_pos hbinds]
  simp only [initSocket, hsearch]
  exact ⟨rfl, rfl⟩

theorem discovery_names_port_first : ∃ s, run (step ⟨inaddrAny, .ofNat 4011⟩) (start prober) probing = some s ∧
    ∃ text, s.acks = [(prober, text)] ∧ ∀ addr, text = notifyaddr addr → addr.port.toNat = 4011 := by
  obtain ⟨hret, hbound⟩ := first_start
  have hstart : 0 ≤ (initSocket (startWith true) Server.new.globals).ret := by
    rw [hret]
    decide
  obtain ⟨s, hrun, hacks, -⟩ := probing_runs
  have hnamed : Along (step ⟨inaddrAny, .ofNat 4011⟩) Named (start prober) probing :=
    (along_trivial _ _).of_mem fun _ e he _ => by
      simp only [probing, List.mem_cons, List.not_mem_nil, or_false] at he
      rcases he with rfl | rfl | rfl | rfl | rfl | rfl | rfl | rfl | rfl | rfl <;> simp only [Named]
  have hmem : (prober, ascii "notifyaddr:ip=0.0.0.0:port=4011") ∈ s.acks := hacks ▸ List.mem_singleton_self _
  have hnames := discovery_names_port hstart hbound hrun hnamed _ hmem
  exact ⟨s, hrun, _, hacks, fun addr haddr => (hnames.2.2 addr haddr).2⟩

end RemoteCtrl.Discovery
