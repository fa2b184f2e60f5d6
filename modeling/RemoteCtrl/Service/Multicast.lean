import Mathlib.Data.Finset.Basic
import RemoteCtrl.Foundation.Inet

/-!
# Joining and leaving a group

`socket_join_group` and `socket_leave_group` over the memberships the kernel keeps for each descriptor. The
test of the address is commented out in the first function and left in the second, where an address that fails
it is ignored and reported as left. The test wants more than a multicast address: 224.0.0.0 to 224.0.0.255
fail it, and the group of the service is one of these.
-/

namespace RemoteCtrl.Service

open CProgram

structure IpMreq where
  imrMultiaddr : InAddr
  imrInterface : InAddr
  deriving DecidableEq

/-- The groups each descriptor is a member of. -/
abbrev Memberships := Int → Finset IpMreq

/-! ### The kernel -/

/-- `IN_MULTICAST`. -/
def InMulticast (a : InAddr) : Prop := 0xE0000000 ≤ ntohl a ∧ ntohl a ≤ 0xEFFFFFFF

instance (a : InAddr) : Decidable (InMulticast a) := inferInstanceAs (Decidable (_ ∧ _))

/-- IP_ADD_MEMBERSHIP, which the kernel may also refuse for reasons of its own. -/
def addMembership (refused : Bool) (m : Memberships) (fd : Int) (imr : IpMreq) : Int × Memberships :=
  if refused ∨ ¬InMulticast imr.imrMultiaddr ∨ imr ∈ m fd then (-1, m)
  else (0, Function.update m fd (insert imr (m fd)))

/-- IP_DROP_MEMBERSHIP. -/
def dropMembership (m : Memberships) (fd : Int) (imr : IpMreq) : Int × Memberships :=
  if imr ∈ m fd then (0, Function.update m fd ((m fd).erase imr)) else (-1, m)

/-! ### The functions -/

def isMulticastAddress (address : InAddr) : Bool :=
  let addressInHostOrder := ntohl address
  0xE00000FF < addressInHostOrder && addressInHostOrder ≤ 0xEFFFFFFF

def socketJoinGroup (refused : Bool) (m : Memberships) (fd : Int) (multiIp : Bytes) : Int × Memberships :=
  let imr : IpMreq := { imrMultiaddr := inetAddr multiIp, imrInterface := inaddrAny }
  let (err, m) := addMembership refused m fd imr
  if err < 0 then (-1, m) else (0, m)

def socketLeaveGroup (m : Memberships) (fd : Int) (groupAddr interfaceAddr : InAddr) : Int × Memberships :=
  if ¬isMulticastAddress groupAddr then (0, m)
  else
    let imr : IpMreq := { imrMultiaddr := groupAddr, imrInterface := interfaceAddr }
    let (err, m) := dropMembership m fd imr
    if err < 0 then (-1, m) else (0, m)

/-! ### What each of them does -/

theorem addMembership_new {m : Memberships} {fd : Int} (imr : IpMreq) (hmulticast : InMulticast imr.imrMultiaddr)
    (hnew : imr ∉ m fd) (refused : Bool) :
    addMembership refused m fd imr =
      if refused then (-1, m) else (0, Function.update m fd (insert imr (m fd))) := by
  simp [addMembership, hmulticast, hnew]

theorem dropMembership_member {m : Memberships} {fd : Int} {imr : IpMreq} (hmember : imr ∈ m fd) :
    dropMembership m fd imr = (0, Function.update m fd ((m fd).erase imr)) := if_pos hmember

section
variable {m : Memberships} {fd : Int} {a : InAddr}

/-- What the two functions ask the kernel for. -/
def onAnyInterface (a : InAddr) : IpMreq := { imrMultiaddr := a, imrInterface := inaddrAny }

theorem socketJoinGroup_dotted (hmulticast : InMulticast a) (hnew : onAnyInterface a ∉ m fd) (refused : Bool) :
    socketJoinGroup refused m fd (dotted a) =
      if refused then (-1, m) else (0, Function.update m fd (insert (onAnyInterface a) (m fd))) := by
  have hasked : { imrMultiaddr := inetAddr (dotted a), imrInterface := inaddrAny } = onAnyInterface a := by
    rw [inetAddr_dotted, onAnyInterface]
  rw [socketJoinGroup, hasked, addMembership_new (onAnyInterface a) hmulticast hnew]
  cases refused <;> rfl

theorem socketLeaveGroup_ignored (hignored : isMulticastAddress a = false) (interfaceAddr : InAddr) :
    socketLeaveGroup m fd a interfaceAddr = (0, m) := by
  rw [socketLeaveGroup, if_pos (by simp [hignored])]

theorem socketLeaveGroup_member (hpasses : isMulticastAddress a = true) (hmember : onAnyInterface a ∈ m fd) :
    socketLeaveGroup m fd a inaddrAny = (0, Function.update m fd ((m fd).erase (onAnyInterface a))) := by
  rw [socketLeaveGroup, if_neg (by simp [hpasses])]
  show (let (err, m) := dropMembership m fd (onAnyInterface a)
    if err < 0 then (-1, m) else (0, m)) = _
  rw [dropMembership_member hmember]
  rfl

/-- Of the multicast addresses, all but the first 256 pass the test. -/
theorem isMulticastAddress_iff (hmulticast : InMulticast a) : isMulticastAddress a = true ↔ 0xE00000FF < ntohl a := by
  simp [isMulticastAddress, hmulticast.2]

end

/-! ### Leaving undoes joining -/

/-- If the join succeeds, leaving the group removes the membership and restores what was there before, and
does not report success while the membership remains. -/
def LeaveUndoesJoin (refused : Bool) (m : Memberships) (fd : Int) (a : InAddr) : Prop :=
  let joined := socketJoinGroup refused m fd (dotted a)
  let left := socketLeaveGroup joined.2 fd a inaddrAny
  joined.1 = 0 →
    (onAnyInterface a ∉ left.2 fd ∧ left.2 = m) ∧ (left.1 = 0 → onAnyInterface a ∉ left.2 fd)

theorem leave_undoes_join_iff (refused : Bool) (m : Memberships) (fd : Int) (a : InAddr)
    (hmulticast : InMulticast a) (hnew : onAnyInterface a ∉ m fd) :
    LeaveUndoesJoin refused m fd a ↔ refused = true ∨ 0xE00000FF < ntohl a := by
  rw [LeaveUndoesJoin, socketJoinGroup_dotted hmulticast hnew, ← isMulticastAddress_iff hmulticast]
  cases refused with
  | true => simp
  | false =>
      have hjoined : onAnyInterface a ∈ (Function.update m fd (insert (onAnyInterface a) (m fd))) fd := by simp
      simp only [Bool.false_eq_true, if_false, false_or, true_imp_iff]
      cases hpasses : isMulticastAddress a with
      | false =>
          rw [socketLeaveGroup_ignored hpasses]
          simp only [Bool.false_eq_true, iff_false]
          exact fun hundone => hundone.1.1 hjoined
      | true =>
          rw [socketLeaveGroup_member hpasses hjoined]
          have hrestored : Function.update (Function.update m fd (insert (onAnyInterface a) (m fd))) fd
              ((Function.update m fd (insert (onAnyInterface a) (m fd)) fd).erase (onAnyInterface a)) = m := by
            rw [Function.update_self, Finset.erase_insert hnew, Function.update_idem, Function.update_eq_self]
          simp only [hrestored, iff_true]
          exact ⟨⟨hnew, trivial⟩, fun _ => hnew⟩

/-- 239.1.2.3, on a socket that is a member of the group of the service. -/
theorem leave_undoes_join_site_local :
    LeaveUndoesJoin false (fun _ => {onAnyInterface ⟨224, 0, 0, 88⟩}) 5 ⟨239, 1, 2, 3⟩ :=
  (leave_undoes_join_iff false _ 5 ⟨239, 1, 2, 3⟩ (by decide) (by decide)).mpr (.inr (by decide))

/-- The group of the service, 224.0.0.88, cannot be left. -/
theorem service_group_not_left :
    ¬∀ refused m fd a, InMulticast a → onAnyInterface a ∉ m fd → LeaveUndoesJoin refused m fd a := by
  intro hclaim
  have hmulticast : InMulticast ⟨224, 0, 0, 88⟩ := by decide
  have hnew : onAnyInterface ⟨224, 0, 0, 88⟩ ∉ (∅ : Finset IpMreq) := Finset.notMem_empty _
  have hundone := hclaim false (fun _ => ∅) 5 ⟨224, 0, 0, 88⟩ hmulticast hnew
  rw [LeaveUndoesJoin, socketJoinGroup_dotted hmulticast hnew, socketLeaveGroup_ignored (by decide)] at hundone
  apply (hundone rfl).2 rfl
  simp

end RemoteCtrl.Service
