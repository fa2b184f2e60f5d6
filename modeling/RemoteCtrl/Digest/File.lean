import RemoteCtrl.Digest.Stream
import RemoteCtrl.Update.Verified

/-!
# The digest of a file

`our_MD5Data` and `our_MD5File` write the same text for the same bytes: the hexadecimal `md5` of everything that
was fed, however `fread` cut it. So the digest in front of the install steps is a function of the content
alone, as the update task takes it to be, and what a command may be admitted with is known: 32 digits, lower
case, of the MD5 of its download.
-/

namespace RemoteCtrl.Md5

open CProgram CProgram.BlockHash

/-! ### The text of a digest -/

theorem encode_length (words : List UInt32) : (encode words).length = 4 * words.length := by
  induction words with
  | nil => rfl
  | cons word words ih =>
      rw [encode, List.flatMap_cons, List.length_append, ← encode, ih, List.length_cons]
      have hword : (wordBytes word).length = 4 := rfl
      omega

theorem md5_length (message : Bytes) : (md5 message).length = 16 := encode_length _

theorem hexDigits_length (digest : Bytes) : (hexDigits digest).length = 2 * digest.length := by
  induction digest with
  | nil => rfl
  | cons byte digest ih =>
      rw [hexDigits, List.flatMap_cons, List.length_append, ← hexDigits, ih, List.length_cons]
      simp only [List.length_cons, List.length_nil]
      omega

theorem hexMd5_length (message : Bytes) : (hexMd5 message).length = 32 := by
  rw [hexMd5, hexDigits_length, md5_length]

def isHexDigit (c : UInt8) : Bool := isDigit c || (97 ≤ c && c ≤ 102)

theorem hex_isHexDigit {nibble : UInt8} (hlt : nibble.toNat < 16) : isHexDigit (hex nibble) = true := by
  have hall : ∀ n < 16, isHexDigit ((ascii "0123456789abcdef").getD n 0) = true := by decide
  exact hall _ hlt

theorem high_toNat (byte : UInt8) : (byte >>> 4).toNat = byte.toNat / 16 := by
  rw [UInt8.toNat_shiftRight, Nat.shiftRight_eq_div_pow]
  rfl

theorem low_toNat (byte : UInt8) : (byte &&& 0x0f).toNat = byte.toNat % 16 := by
  rw [UInt8.toNat_and]
  exact Nat.and_two_pow_sub_one_eq_mod _ 4

theorem hexDigits_digits (digest : Bytes) : ∀ c ∈ hexDigits digest, isHexDigit c = true := by
  intro c hc
  obtain ⟨byte, -, hc⟩ := List.mem_flatMap.mp hc
  have hbyte : byte.toNat < 256 := byte.toNat_lt
  rcases List.mem_pair.mp hc with rfl | rfl
  · exact hex_isHexDigit (by rw [high_toNat]; omega)
  · exact hex_isHexDigit (by rw [low_toNat]; omega)

/-! ### A block of memory -/

variable {context : Context} {data : Bytes}

/-- `our_MD5End` writes the text and its NUL into the block it is given or allocates. -/
theorem our_MD5End_spec (hholds : Holds context data) {buf malloc : Option Bytes} {block : Bytes}
    (hbuf : buf.or malloc = some block) (hroom : 33 ≤ block.length) :
    our_MD5End context buf malloc = .ret (some (hexMd5 data ++ 0 :: block.drop 33), Context.zero) := by
  have hlen : (hexMd5 data ++ [0]).length = 33 := by
    rw [List.length_append, hexMd5_length]
    rfl
  have hstore : store block (hexDigits (md5 data) ++ [0]) = .ret (hexMd5 data ++ 0 :: block.drop 33) := by
    have hfits : (hexDigits (md5 data) ++ [0]).length ≤ block.length := hlen.le.trans hroom
    rw [store_of_le hfits, ← hexMd5, hlen, List.append_assoc]
    rfl
  rw [our_MD5End, hbuf]
  simp only [our_MD5Final_spec hholds, Outcome.ret_bind, hstore]
  rfl

/-- The digest of a block of memory, for every length. -/
theorem our_MD5Data_spec {len : UInt32} (hobject : len.toNat ≤ data.length) (context : Context)
    {buf malloc : Option Bytes} {block : Bytes} (hbuf : buf.or malloc = some block) (hroom : 33 ≤ block.length) :
    our_MD5Data data len context buf malloc = .ret (some (hexMd5 (data.take len.toNat) ++ 0 :: block.drop 33)) := by
  have hfit : ([] : Bytes).length % 64 + len.toNat < 4294967296 := by
    rw [List.length_nil, Nat.zero_mod, Nat.zero_add]
    exact len.toNat_lt
  obtain ⟨next, hnext, hholds⟩ := ourMD5Update_spec (holds_init context) hobject hfit
  rw [our_MD5Data, hnext, Outcome.ret_bind, our_MD5End_spec hholds hbuf hroom]
  rfl

def block33 : Bytes := List.replicate 33 0

theorem our_MD5Data_spec_abc :
    our_MD5Data (ascii "abc") 3 Context.zero none (some block33) = .ret (some (hexMd5 (ascii "abc") ++ [0])) :=
  our_MD5Data_spec (show (3 : UInt32).toNat ≤ (ascii "abc").length by decide) Context.zero rfl
    (show 33 ≤ block33.length by decide)

example : hexMd5 (ascii "abc") = ascii "900150983cd24fb0d6963f7d28e17f72" := by decide +kernel

/-! ### A file -/

variable {bufsiz : Nat}

def content (reads : List (Fread bufsiz)) : Bytes := reads.flatMap Fread.bytes

theorem feedFile_spec (hbufsiz : bufsiz < 2147483648) (reads : List (Fread bufsiz)) {buffer : Bytes}
    (hbuffer : buffer.length = bufsiz) (hholds : Holds context data) :
    ∃ next, feedFile reads buffer context = .ret next ∧ Holds next (data ++ content reads) := by
  induction reads generalizing buffer context data with
  | nil => exact ⟨context, rfl, by rwa [content, List.flatMap_nil, List.append_nil]⟩
  | cons read reads ih =>
      have hle := read.le
      have hcount : (UInt32.ofNat read.bytes.length).toNat = read.bytes.length :=
        UInt32.toNat_ofNat_of_lt' (by change read.bytes.length < 4294967296; omega)
      have hfilled : (read.bytes ++ buffer.drop read.bytes.length).length = bufsiz := by
        rw [List.length_append, List.length_drop]
        omega
      obtain ⟨next, hnext, hfed⟩ := ourMD5Update_spec hholds
        (show (UInt32.ofNat read.bytes.length).toNat ≤ (read.bytes ++ buffer.drop read.bytes.length).length by
          rw [hcount, hfilled]; exact hle)
        (by rw [hcount]; omega)
      rw [hcount, List.take_left' rfl] at hfed
      obtain ⟨last, hlast, hholdsLast⟩ := ih hfilled hfed
      refine ⟨last, ?_, ?_⟩
      · rw [feedFile, hnext, Outcome.ret_bind, hlast]
      · rwa [content, List.flatMap_cons, ← List.append_assoc]

/-- **The digest of a file is that of its content**, in whatever pieces `fread` returns it. -/
theorem our_MD5File_spec (hbufsiz : bufsiz < 2147483648) (reads : List (Fread bufsiz)) {buffer : Bytes}
    (hbuffer : buffer.length = bufsiz) (context : Context) {buf malloc : Option Bytes} {block : Bytes}
    (hbuf : buf.or malloc = some block) (hroom : 33 ≤ block.length) :
    our_MD5File (some reads) buffer context buf malloc
      = .ret (some (hexMd5 (content reads) ++ 0 :: block.drop 33)) := by
  obtain ⟨next, hnext, hholds⟩ := feedFile_spec hbufsiz reads hbuffer (holds_init context)
  rw [List.nil_append] at hholds
  rw [our_MD5File, hnext, Outcome.ret_bind, our_MD5End_spec hholds hbuf hroom]
  rfl

def abcReads : List (Fread 4) := [⟨ascii "a", by decide, by decide⟩, ⟨ascii "bc", by decide, by decide⟩]

theorem our_MD5File_spec_two_reads :
    our_MD5File (some abcReads) [7, 7, 7, 7] Context.zero none (some block33)
      = .ret (some (hexMd5 (content abcReads) ++ [0])) :=
  our_MD5File_spec (by decide) abcReads rfl Context.zero rfl (show 33 ≤ block33.length by decide)

/-! ### The check of an update -/

variable {Loc : Type}

/-- The update task's view of the function: the digest is a function of the content of the file. -/
theorem our_MD5File_refines (files : Files Loc) (path : Bytes) (fopen : Bool) (hbufsiz : bufsiz < 2147483648)
    {reads : List (Fread bufsiz)} (hreads : files.read path = some (content reads)) {buffer : Bytes}
    (hbuffer : buffer.length = bufsiz) (context : Context) {block : Bytes} (hroom : 33 ≤ block.length) :
    our_MD5File (if fopen then some reads else none) buffer context none (some block)
      = .ret ((ourMD5File hexMd5 fopen files path).map (· ++ 0 :: block.drop 33)) := by
  cases fopen with
  | false => rfl
  | true =>
      rw [if_pos rfl, our_MD5File_spec hbufsiz reads hbuffer context rfl hroom, ourMD5File, if_pos rfl, hreads]
      rfl

def IsDigest (md5 : Bytes) : Prop := md5.length = 32 ∧ ∀ c ∈ md5, isHexDigit c = true

instance (md5 : Bytes) : Decidable (IsDigest md5) :=
  inferInstanceAs (Decidable (md5.length = 32 ∧ ∀ c ∈ md5, isHexDigit c = true))

theorem isDigest_hexMd5 (message : Bytes) : IsDigest (hexMd5 message) :=
  ⟨hexMd5_length message, hexDigits_digits _⟩

variable [DecidableEq Loc]

/-- **A command whose `md5` is not 32 lower-case hexadecimal digits never installs**, whatever it downloads. -/
theorem malformed_md5_never_installs {env : UpdateEnv Loc} (files : Files Loc) {cmdarglist : List (Option Bytes)}
    {args : UpdateArgs} (hscan : scanArgs cmdarglist {} = .ret args)
    (hmalformed : ∀ md5, args.argMd5 = some md5 → ¬IsDigest md5) :
    (doUpdate hexMd5 env files cmdarglist).shell = []
      ∧ ∀ res rsp, (doUpdate hexMd5 env files cmdarglist).result = .ret (res, rsp) → res < 0 := by
  rcases doUpdate_cases hexMd5 env files cmdarglist with
    ⟨⟨hshell, -, hres⟩, -⟩ | ⟨-, -, -, -, ⟨hshell, -, hres⟩, -⟩ | ⟨name, -, args', hscan', -, -, -, -, hmd5⟩
  · refine ⟨hshell, fun res rsp hret => ?_⟩
    have := hres res rsp hret
    omega
  · refine ⟨hshell, fun res rsp hret => ?_⟩
    have := hres res rsp hret
    omega
  · rw [hscan, Outcome.ret.injEq] at hscan'
    exact absurd (isDigest_hexMd5 _) (hmalformed _ (hscan' ▸ hmd5))

theorem upper_case_never_installs :
    (doUpdate hexMd5 (fetchCommand archive (ascii "900150983CD24FB0D6963F7D28E17F72")
        ⟨ascii "abc", by decide, by decide⟩).env emptyDirectory
      (fetchCommand archive (ascii "900150983CD24FB0D6963F7D28E17F72")
        ⟨ascii "abc", by decide, by decide⟩).cmdarglist).shell = [] :=
  (malformed_md5_never_installs emptyDirectory rfl (by rintro md5 ⟨⟩; decide)).1

end RemoteCtrl.Md5
