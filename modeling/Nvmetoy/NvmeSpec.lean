import Nvmetoy.Framework.Bytes

/-!
# Registers, opcodes and data structures of NVMe

The entries are records with the fields of the source's `repr(C)` structs, in their
order, and `encode` lays them out little-endian as the 64 and 16 bytes the controller
sees. Of the two 4096-byte Identify structures only the fields the driver reads are
kept, each at its byte offset.
-/

namespace Nvmetoy

open Framework

/-- Controller capabilities. -/
def CAP : Nat := 0x00
/-- Controller configuration. -/
def CC : Nat := 0x14
/-- Controller status. -/
def CSTS : Nat := 0x1C
/-- Admin queue attributes. -/
def AQA : Nat := 0x24
/-- The base address of the admin submission queue. -/
def ASQ : Nat := 0x28
/-- The base address of the admin completion queue. -/
def ACQ : Nat := 0x30
/-- The first doorbell. -/
def DOORBELL_BASE : Nat := 0x1000

/-- The opcodes of the admin commands the driver issues. -/
inductive AdminOpcode where
  | createIoSubmissionQueue
  | createIoCompletionQueue
  | identify
deriving DecidableEq, Repr

/-- The opcode on the wire. -/
def AdminOpcode.toUInt8 : AdminOpcode → UInt8
  | createIoSubmissionQueue => 0x01
  | createIoCompletionQueue => 0x05
  | identify => 0x06

/-- The opcodes of the I/O commands the driver issues. -/
inductive IoOpcode where
  | write
  | read
deriving DecidableEq, Repr

/-- The opcode on the wire. -/
def IoOpcode.toUInt8 : IoOpcode → UInt8
  | write => 0x01
  | read => 0x02

/-- `IdentifyStructure`: what Identify is asked for. -/
inductive IdentifyStructure where
  | «namespace»
  | controller
  | activeNamespaceList
deriving DecidableEq, Repr

/-- The CNS value of a structure. -/
def IdentifyStructure.toUInt32 : IdentifyStructure → UInt32
  | «namespace» => 0x00
  | controller => 0x01
  | activeNamespaceList => 0x02

/-! ### Submission queue entries -/

/-- `SubmissionQueueEntry`: the 64 bytes of a command. -/
structure SubmissionQueueEntry where
  opc : UInt8
  flags : UInt8
  cid : UInt16
  nsid : UInt32
  cdw2 : UInt32
  cdw3 : UInt32
  mptr : UInt64
  prp1 : UInt64
  prp2 : UInt64
  cdw10 : UInt32
  cdw11 : UInt32
  cdw12 : UInt32
  cdw13 : UInt32
  cdw14 : UInt32
  cdw15 : UInt32
deriving DecidableEq, Repr

namespace SubmissionQueueEntry

/-- `size_of::<SubmissionQueueEntry>()`. -/
def SIZE : Nat := 64

/-- `align_of::<SubmissionQueueEntry>()`. -/
def ALIGN : Nat := 8

/-- The all-zero entry with opcode `opc`. -/
def new (opc : UInt8) : SubmissionQueueEntry where
  opc := opc
  flags := 0
  cid := 0
  nsid := 0
  cdw2 := 0
  cdw3 := 0
  mptr := 0
  prp1 := 0
  prp2 := 0
  cdw10 := 0
  cdw11 := 0
  cdw12 := 0
  cdw13 := 0
  cdw14 := 0
  cdw15 := 0

/-- The 64 bytes of an entry. -/
def encode (e : SubmissionQueueEntry) : List UInt8 :=
  toLe 1 e.opc.toNat ++ (toLe 1 e.flags.toNat ++ (toLe 2 e.cid.toNat ++ (toLe 4 e.nsid.toNat ++
    (toLe 4 e.cdw2.toNat ++ (toLe 4 e.cdw3.toNat ++ (toLe 8 e.mptr.toNat ++
    (toLe 8 e.prp1.toNat ++ (toLe 8 e.prp2.toNat ++ (toLe 4 e.cdw10.toNat ++
    (toLe 4 e.cdw11.toNat ++ (toLe 4 e.cdw12.toNat ++ (toLe 4 e.cdw13.toNat ++
    (toLe 4 e.cdw14.toNat ++ toLe 4 e.cdw15.toNat)))))))))))))

/-- The entry in 64 bytes, each field at its offset in the command format. -/
def decode (bs : List UInt8) : SubmissionQueueEntry where
  opc := .ofNat (leField bs 0 1)
  flags := .ofNat (leField bs 1 1)
  cid := .ofNat (leField bs 2 2)
  nsid := .ofNat (leField bs 4 4)
  cdw2 := .ofNat (leField bs 8 4)
  cdw3 := .ofNat (leField bs 12 4)
  mptr := .ofNat (leField bs 16 8)
  prp1 := .ofNat (leField bs 24 8)
  prp2 := .ofNat (leField bs 32 8)
  cdw10 := .ofNat (leField bs 40 4)
  cdw11 := .ofNat (leField bs 44 4)
  cdw12 := .ofNat (leField bs 48 4)
  cdw13 := .ofNat (leField bs 52 4)
  cdw14 := .ofNat (leField bs 56 4)
  cdw15 := .ofNat (leField bs 60 4)

@[simp] theorem length_encode (e : SubmissionQueueEntry) : e.encode.length = SIZE := by
  simp [encode, SIZE]

end SubmissionQueueEntry

/-! ### Completion queue entries -/

/-- `CompletionQueueEntry`: the 16 bytes of a completion. -/
structure CompletionQueueEntry where
  result : UInt32
  reserved : UInt32
  sqHead : UInt16
  sqId : UInt16
  cid : UInt16
  status : UInt16
deriving DecidableEq, Repr

namespace CompletionQueueEntry

/-- `size_of::<CompletionQueueEntry>()`. -/
def SIZE : Nat := 16

/-- `align_of::<CompletionQueueEntry>()`. -/
def ALIGN : Nat := 4

/-- `phase`: the lowest bit of the status. -/
def phase (c : CompletionQueueEntry) : Bool := c.status &&& 0x1 != 0

/-- `status_code`: the eight bits above the phase. -/
def statusCode (c : CompletionQueueEntry) : UInt8 := ((c.status >>> 1) &&& 0xFF).toUInt8

/-- `status_code_type`: the three bits above the status code. -/
def statusCodeType (c : CompletionQueueEntry) : UInt8 := ((c.status >>> 9) &&& 0x7).toUInt8

/-- `is_success`: both are zero. -/
def isSuccess (c : CompletionQueueEntry) : Bool := c.statusCode == 0 && c.statusCodeType == 0

/-- The 16 bytes of an entry. -/
def encode (c : CompletionQueueEntry) : List UInt8 :=
  toLe 4 c.result.toNat ++ (toLe 4 c.reserved.toNat ++ (toLe 2 c.sqHead.toNat ++
    (toLe 2 c.sqId.toNat ++ (toLe 2 c.cid.toNat ++ toLe 2 c.status.toNat))))

/-- The entry in 16 bytes. -/
def decode (bs : List UInt8) : CompletionQueueEntry where
  result := .ofNat (leField bs 0 4)
  reserved := .ofNat (leField bs 4 4)
  sqHead := .ofNat (leField bs 8 2)
  sqId := .ofNat (leField bs 10 2)
  cid := .ofNat (leField bs 12 2)
  status := .ofNat (leField bs 14 2)

@[simp] theorem length_encode (c : CompletionQueueEntry) : c.encode.length = SIZE := by
  simp [encode, SIZE]

end CompletionQueueEntry

/-! ### Reading an entry back -/

section RoundTrip

/-- A last field, with nothing after it. -/
private theorem leField_last (n v : Nat) : leField (toLe n v) 0 n = v % 256 ^ n := by
  simpa using leField_zero n v []

/-- What was written as a command is read as that command. -/
theorem SubmissionQueueEntry.decode_encode (e : SubmissionQueueEntry) :
    decode e.encode = e := by
  obtain ⟨⟩ := e
  simp [decode, encode, leField_zero, leField_add, leField_last]

/-- What was written as a completion is read as that completion. -/
theorem CompletionQueueEntry.decode_encode (c : CompletionQueueEntry) :
    decode c.encode = c := by
  obtain ⟨⟩ := c
  simp [decode, encode, leField_zero, leField_add, leField_last]

/-- An area of zeroed memory holds entries tagged 0. -/
theorem CompletionQueueEntry.phase_decode_zero (n : Nat) :
    (decode (List.replicate n 0)).phase = false := by
  have hz : ∀ k, ofLe (List.replicate k (0 : UInt8)) = 0 := by
    intro k
    induction k with
    | zero => rfl
    | succ k ih => simp [List.replicate_succ, ofLe, ih]
  simp [decode, phase, leField, hz]

end RoundTrip

/-! ### Identify data -/

/-- The size of both Identify structures. -/
def IDENTIFY_SIZE : Nat := 4096

/-- `LbaFormat`: four bytes of the Identify Namespace structure. -/
structure LbaFormat where
  ms : UInt16
  lbads : UInt8
  rp : UInt8
deriving DecidableEq, Repr

/-- The fields of Identify Namespace that say how the namespace is formatted. -/
structure IdentifyNamespace where
  nlbaf : UInt8
  flbas : UInt8
  nulbaf : UInt8
  lbaFormats : Fin 64 → LbaFormat

/-- The `index`-th entry of the format table at offset 128. -/
def LbaFormat.decode (data : List UInt8) (index : Nat) : LbaFormat where
  ms := .ofNat (leField data (128 + 4 * index) 2)
  lbads := .ofNat (leField data (128 + 4 * index + 2) 1)
  rp := .ofNat (leField data (128 + 4 * index + 3) 1)

/-- `IdentifyNamespace::read_from_prefix`, refused when the data is too short. -/
def IdentifyNamespace.readFromPrefix (data : List UInt8) : Option IdentifyNamespace :=
  if data.length < IDENTIFY_SIZE then none
  else some {
    nlbaf := .ofNat (leField data 25 1)
    flbas := .ofNat (leField data 26 1)
    nulbaf := .ofNat (leField data 82 1)
    -- the table has its full length whatever `nlbaf` says
    lbaFormats := fun index => LbaFormat.decode data index }

/-- The fields of Identify Controller that the driver checks and `identify` reports. -/
structure IdentifyController where
  vid : UInt16
  ssvid : UInt16
  sn : List UInt8
  mn : List UInt8
  fr : List UInt8
  ieee : List UInt8
  mdts : UInt8
  cntlid : UInt16
  ver : UInt32
  oaes : UInt32
  ctratt : UInt32
  oacs : UInt16
  acl : UInt8
  aerl : UInt8
  frmw : UInt8
  lpa : UInt8
  npss : UInt8
  sqes : UInt8
  cqes : UInt8
  maxcmd : UInt16
  nn : UInt32
  oncs : UInt16
  fna : UInt8
  vwc : UInt8
  sgls : UInt32
deriving DecidableEq, Repr

/-- The `size` bytes from offset `off` on. -/
def bytesField (data : List UInt8) (off size : Nat) : List UInt8 := (data.drop off).take size

/-- `IdentifyController::read_from_prefix`, refused when the data is too short. -/
def IdentifyController.readFromPrefix (data : List UInt8) : Option IdentifyController :=
  if data.length < IDENTIFY_SIZE then none
  else some {
    vid := .ofNat (leField data 0 2)
    ssvid := .ofNat (leField data 2 2)
    sn := bytesField data 4 20
    mn := bytesField data 24 40
    fr := bytesField data 64 8
    ieee := bytesField data 73 3
    mdts := .ofNat (leField data 77 1)
    cntlid := .ofNat (leField data 78 2)
    ver := .ofNat (leField data 80 4)
    oaes := .ofNat (leField data 92 4)
    ctratt := .ofNat (leField data 96 4)
    oacs := .ofNat (leField data 256 2)
    acl := .ofNat (leField data 258 1)
    aerl := .ofNat (leField data 259 1)
    frmw := .ofNat (leField data 260 1)
    lpa := .ofNat (leField data 261 1)
    npss := .ofNat (leField data 263 1)
    sqes := .ofNat (leField data 512 1)
    cqes := .ofNat (leField data 513 1)
    maxcmd := .ofNat (leField data 514 2)
    nn := .ofNat (leField data 516 4)
    oncs := .ofNat (leField data 520 2)
    fna := .ofNat (leField data 524 1)
    vwc := .ofNat (leField data 525 1)
    sgls := .ofNat (leField data 536 4) }

end Nvmetoy
