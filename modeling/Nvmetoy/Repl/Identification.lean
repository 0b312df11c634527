import Nvmetoy.Repl.Lines

/-!
# The report of `identify`

What `print_controller_identification` prints of the Identify Controller data: who made the
controller, its limits, and the features that it has. The text fields are whatever bytes the
controller gives, so they go through `String::from_utf8_lossy`, which undoes an encoding
(`fromUtf8Lossy_bytes`) and puts a replacement character where there is none.
-/

namespace Nvmetoy

/-! ### Text that may not be text -/

/-- How many of the bytes after `lead` an ill-formed character takes with it: those with which it
could still have become one. -/
def brokenOff (lead : UInt8) (rest : List UInt8) : Nat :=
  let follows (index : Nat) (low high : UInt8) : Bool :=
    match rest[index]? with
    | some byte => low ≤ byte && byte ≤ high
    | none => false
  if 0xE0 ≤ lead ∧ lead ≤ 0xF4 then
    let low : UInt8 := if lead = 0xE0 then 0xA0 else if lead = 0xF0 then 0x90 else 0x80
    let high : UInt8 := if lead = 0xED then 0x9F else if lead = 0xF4 then 0x8F else 0xBF
    if !follows 0 low high then 0
    else if 0xF0 ≤ lead && follows 1 0x80 0xBF then 2
    else 1
  else 0

/-- `char::REPLACEMENT_CHARACTER`. -/
def REPLACEMENT_CHARACTER : Char := Char.ofNat 0xFFFD

/-- `String::from_utf8_lossy`, at most `fuel` characters of it. -/
def fromUtf8LossyAux : Nat → List UInt8 → Str
  | _, [] => []
  | 0, _ :: _ => []
  | fuel + 1, lead :: rest =>
    match utf8Char (lead :: rest) with
    | some (c, rest) => c :: fromUtf8LossyAux fuel rest
    | none =>
      REPLACEMENT_CHARACTER :: fromUtf8LossyAux fuel (rest.drop (brokenOff lead rest))

/-- `String::from_utf8_lossy`: every character takes a byte at least. -/
def fromUtf8Lossy (bs : List UInt8) : Str := fromUtf8LossyAux bs.length bs

/-- Text that is UTF-8 is decoded as it is. -/
theorem fromUtf8LossyAux_bytes (s : Str) {fuel : Nat} (h : s.bytes.length ≤ fuel) :
    fromUtf8LossyAux fuel s.bytes = s := by
  induction s generalizing fuel with
  | nil => cases fuel <;> rfl
  | cons c s ih =>
    obtain ⟨lead, rest, hbytes⟩ : ∃ lead rest, String.utf8EncodeChar c = lead :: rest :=
      List.exists_cons_of_ne_nil (utf8EncodeChar_ne_nil c)
    -- the first character is decoded as it was encoded, and takes a byte at least
    have hchar := utf8Char_encode c (Str.bytes s)
    rw [Str.bytes_cons, hbytes, List.cons_append, List.length_cons, List.length_append] at h
    obtain ⟨fuel, rfl⟩ : ∃ k, fuel = k + 1 := ⟨fuel - 1, by omega⟩
    rw [hbytes, List.cons_append] at hchar
    rw [Str.bytes_cons, hbytes, List.cons_append, fromUtf8LossyAux, hchar]
    exact congrArg (c :: ·) (ih (by omega))

/-- **What is well-formed** is left as it is. -/
theorem fromUtf8Lossy_bytes (s : Str) : fromUtf8Lossy s.bytes = s :=
  fromUtf8LossyAux_bytes s le_rfl

-- a lead byte with the first of its two followers, a stray follower, and a letter
example : fromUtf8Lossy [0xE2, 0x82, 0x80, 0xFF, 0x61] = "₀\uFFFDa".toList := by decide

example : fromUtf8Lossy [0xE2, 0x82, 0x61] = "\uFFFDa".toList := by decide

/-- `ascii_field`. -/
def asciiField (bytes : List UInt8) : Str := trim (fromUtf8Lossy bytes)

/-! ### Numbers and flags -/

/-- `{:x}`, padded with zeros to `width` digits. -/
def lowerHex (width n : Nat) : Str :=
  let digits := Nat.toDigits 16 n
  List.replicate (width - digits.length) '0' ++ digits

/-- `{:#06x}`. -/
def prefixedHex (n : UInt16) : Str := "0x".toList ++ lowerHex 4 n.toNat

/-- The names of the bits that are set. -/
def flags (value : UInt32) (bits : List (UInt32 × String)) : Str :=
  let set := (bits.filter fun bit => value &&& ((1 : UInt32) <<< bit.1) != 0).map fun bit =>
    bit.2.toList
  if set.isEmpty then "(none)".toList else List.intercalate ", ".toList set

/-! ### The report -/

namespace IdentifyController

variable (id : IdentifyController)

/-- The lines under "Identification". -/
def whoseLines : List Str :=
  [[],
   "=== Identification ===".toList,
   "PCI Vendor (VID)        : ".toList ++ prefixedHex id.vid,
   "PCI Subsys Vendor(SSVID): ".toList ++ prefixedHex id.ssvid,
   "Model (MN)              : ".toList ++ asciiField id.mn,
   "Serial (SN)             : ".toList ++ asciiField id.sn,
   "Firmware (FR)           : ".toList ++ asciiField id.fr,
   "IEEE OUI                : ".toList ++ lowerHex 2 (id.ieee.getD 2 0).toNat ++ "-".toList ++
     lowerHex 2 (id.ieee.getD 1 0).toNat ++ "-".toList ++ lowerHex 2 (id.ieee.getD 0 0).toNat,
   "Controller ID (CNTLID)  : ".toList ++ prefixedHex id.cntlid,
   "NVMe Version (VER)      : ".toList ++ showNat (id.ver >>> 16).toNat ++ ".".toList ++
     showNat ((id.ver >>> 8) &&& 0xFF).toNat ++ ".".toList ++ showNat (id.ver &&& 0xFF).toNat]

/-- The lines under "Limits". -/
def limitLines : List Str :=
  [[],
   "=== Limits ===".toList,
   if id.mdts = 0 then "Max Data Transfer(MDTS) : no limit".toList
   else "Max Data Transfer(MDTS) : 2^".toList ++ showNat id.mdts.toNat ++ " pages".toList,
   "Number of Namespaces(NN): ".toList ++ showNat id.nn.toNat,
   "SQ Entry Size (SQES)    : min 2^".toList ++ showNat (id.sqes &&& 0xF).toNat ++
     ", max 2^".toList ++ showNat (id.sqes >>> 4).toNat ++ " bytes".toList,
   "CQ Entry Size (CQES)    : min 2^".toList ++ showNat (id.cqes &&& 0xF).toNat ++
     ", max 2^".toList ++ showNat (id.cqes >>> 4).toNat ++ " bytes".toList,
   "Max Outstanding(MAXCMD) : ".toList ++ showNat id.maxcmd.toNat,
   "Abort Command Limit(ACL): ".toList ++ showNat (id.acl.toUInt32 + 1).toNat,
   "Async Event Limit(AERL) : ".toList ++ showNat (id.aerl.toUInt32 + 1).toNat,
   "Power States (NPSS)     : ".toList ++ showNat (id.npss.toUInt32 + 1).toNat]

/-- The bits of OACS, as `print_controller_identification` names them. -/
def ADMIN_COMMANDS : List (UInt32 × String) :=
  [(0, "Security Send/Receive"), (1, "Format NVM"), (2, "Firmware Download/Commit"),
   (3, "Namespace Management"), (4, "Device Self-test"), (5, "Directives"),
   (6, "NVMe-MI Send/Receive"), (7, "Virtualization Management"), (8, "Doorbell Buffer Config"),
   (9, "Get LBA Status")]

/-- The bits of ONCS. -/
def NVM_COMMANDS : List (UInt32 × String) :=
  [(0, "Compare"), (1, "Write Uncorrectable"), (2, "Dataset Management"), (3, "Write Zeroes"),
   (4, "Save/Select in Features"), (5, "Reservations"), (6, "Timestamp"), (7, "Verify"),
   (8, "Copy")]

/-- The bits of OAES. -/
def ASYNC_EVENTS : List (UInt32 × String) :=
  [(8, "Namespace Attribute Notices"), (9, "Firmware Activation Notices"),
   (11, "ANA Change Notices"), (12, "Predictable Latency Aggregate Log Change"),
   (13, "LBA Status Information Notices"), (14, "Endurance Group Aggregate Log Change"),
   (31, "Zone Descriptor Changed")]

/-- The bits of CTRATT. -/
def ATTRIBUTES : List (UInt32 × String) :=
  [(0, "128-bit Host Identifier"), (1, "Non-Operational Power State Permissive"),
   (2, "NVM Sets"), (3, "Read Recovery Levels"), (4, "Endurance Groups"),
   (5, "Predictable Latency Mode"), (6, "Traffic Based Keep Alive"),
   (7, "Namespace Granularity"), (8, "SQ Associations"), (9, "UUID List")]

/-- The bits of LPA. -/
def LOG_PAGES : List (UInt32 × String) :=
  [(0, "SMART/Health per-namespace"), (1, "Commands Supported and Effects"),
   (2, "Extended Get Log Page"), (3, "Telemetry"), (4, "Persistent Event")]

/-- The bits of FNA. -/
def FORMAT_ATTRIBUTES : List (UInt32 × String) :=
  [(0, "Format applies to all namespaces"), (1, "Secure erase applies to all namespaces"),
   (2, "Cryptographic erase")]

/-- The bits of SGLS. -/
def SGL_FEATURES : List (UInt32 × String) :=
  [(2, "Keyed SGL Data Block"), (16, "Bit Bucket descriptor"),
   (17, "Byte-aligned metadata buffer"), (18, "Oversized SGL length"),
   (19, "MPTR SGL descriptor"), (20, "Address as offset"), (21, "Transport SGL Data Block")]

/-- `sgl & 0x3`, in words. -/
def sglSupport : String :=
  if id.sgls &&& 0x3 = 0 then "not supported"
  else if id.sgls &&& 0x3 = 1 then "supported, no alignment requirement"
  else if id.sgls &&& 0x3 = 2 then "supported, dword aligned"
  else "reserved"

/-- The lines under "Capabilities". The features of an SGL are those of a controller that supports
it. -/
def capabilityLines : List Str :=
  [[],
   "=== Capabilities ===".toList,
   "Admin commands (OACS)   : ".toList ++ flags id.oacs.toUInt32 ADMIN_COMMANDS,
   "NVM commands (ONCS)     : ".toList ++ flags id.oncs.toUInt32 NVM_COMMANDS,
   "Async events (OAES)     : ".toList ++ flags id.oaes ASYNC_EVENTS,
   "Attributes (CTRATT)     : ".toList ++ flags id.ctratt ATTRIBUTES,
   "Firmware (FRMW)         : ".toList ++ showNat ((id.frmw >>> 1) &&& 0x7).toNat ++
     " slots, ".toList ++
     (if id.frmw &&& 0x1 ≠ 0 then "slot 1 read-only" else "slot 1 writable").toList ++
     (if id.frmw &&& 0x10 ≠ 0 then ", activate without reset" else "").toList,
   "Log pages (LPA)         : ".toList ++ flags id.lpa.toUInt32 LOG_PAGES,
   "Format (FNA)            : ".toList ++ flags id.fna.toUInt32 FORMAT_ATTRIBUTES,
   "Volatile Write Cache    : ".toList ++
     (if id.vwc &&& 0x1 ≠ 0 then "present" else "not present").toList,
   "SGL Support (SGLS)      : ".toList ++ id.sglSupport.toList] ++
  if id.sgls &&& 0x3 ≠ 0 then
    ["SGL Features (SGLS)     : ".toList ++ flags id.sgls SGL_FEATURES]
  else []

/-- All that `print_controller_identification` prints. -/
def report : List Str := id.whoseLines ++ id.limitLines ++ id.capabilityLines

/-- There is one line more where an SGL is supported. -/
theorem length_report : id.report.length = if id.sgls &&& 0x3 ≠ 0 then 32 else 31 := by
  simp only [report, whoseLines, limitLines, capabilityLines, List.length_append,
    List.length_cons, List.length_nil]
  split
  · rfl
  · rfl

end IdentifyController

end Nvmetoy
