import EspHosted.Control.Commands
import EspHosted.Protobuf.Accepted
import EspHosted.Protobuf.RoundTrip

/-!
# The messages of the ESP

The generated descriptors of `esp_hosted_config.proto`, and what the commands see of an
unpacked `EspHostedConfigPayload`. The tables are well formed, and messages lie at most two
deep in a payload.
-/

namespace EspHosted

open EspHosted.Control

namespace Protobuf

/-- The descriptors: those of the structs the union points to, and three others. -/
inductive Descriptor where
  | struct (t : StructType)
  | scanResult
  | connectedSTAList
  | configPayload
  deriving DecidableEq, Repr

def scalarField (id : UInt32) (type : FieldType Descriptor) (offset : ℕ) :
    FieldDescriptor Descriptor where
  id := id
  label := .optional
  type := type
  quantified := true
  offset := offset
  oneof := false

def stringField (id : UInt32) (offset : ℕ) : FieldDescriptor Descriptor where
  id := id
  label := .optional
  type := .string
  quantified := false
  offset := offset
  oneof := false

def repeatedField (id : UInt32) (descriptor : Descriptor) (offset : ℕ) :
    FieldDescriptor Descriptor where
  id := id
  label := .repeated
  type := .message descriptor
  quantified := true
  offset := offset
  oneof := false

/-- `EspHostedConfigPayload__PayloadCase` -/
def payloadNumber : PayloadCase → UInt32
  | .cmdGetMacAddress => 10
  | .respGetMacAddress => 11
  | .cmdGetWifiMode => 12
  | .respGetWifiMode => 13
  | .cmdSetWifiMode => 14
  | .respSetWifiMode => 15
  | .cmdGetApConfig => 16
  | .respGetApConfig => 17
  | .cmdSetApConfig => 18
  | .respSetApConfig => 19
  | .cmdGetSoftapConfig => 20
  | .respGetSoftapConfig => 21
  | .cmdSetSoftapConfig => 22
  | .respSetSoftapConfig => 23
  | .cmdDisconnectAp => 24
  | .respDisconnectAp => 25
  | .cmdStopSoftap => 26
  | .respStopSoftap => 27
  | .cmdScanApList => 28
  | .respScanApList => 29
  | .cmdConnectedStasList => 30
  | .respConnectedStasList => 31
  | .cmdSetMacAddress => 32
  | .respSetMacAddress => 33
  | .cmdSetPowerSaveMode => 34
  | .respSetPowerSaveMode => 35
  | .cmdGetPowerSaveMode => 36
  | .respGetPowerSaveMode => 37
  | .cmdOtaBegin => 38
  | .respOtaBegin => 39
  | .cmdOtaWrite => 40
  | .respOtaWrite => 41
  | .cmdOtaEnd => 42
  | .respOtaEnd => 43

def payloadCases : List PayloadCase :=
  [.cmdGetMacAddress,
   .respGetMacAddress,
   .cmdGetWifiMode,
   .respGetWifiMode,
   .cmdSetWifiMode,
   .respSetWifiMode,
   .cmdGetApConfig,
   .respGetApConfig,
   .cmdSetApConfig,
   .respSetApConfig,
   .cmdGetSoftapConfig,
   .respGetSoftapConfig,
   .cmdSetSoftapConfig,
   .respSetSoftapConfig,
   .cmdDisconnectAp,
   .respDisconnectAp,
   .cmdStopSoftap,
   .respStopSoftap,
   .cmdScanApList,
   .respScanApList,
   .cmdConnectedStasList,
   .respConnectedStasList,
   .cmdSetMacAddress,
   .respSetMacAddress,
   .cmdSetPowerSaveMode,
   .respSetPowerSaveMode,
   .cmdGetPowerSaveMode,
   .respGetPowerSaveMode,
   .cmdOtaBegin,
   .respOtaBegin,
   .cmdOtaWrite,
   .respOtaWrite,
   .cmdOtaEnd,
   .respOtaEnd]

/-- A member of the union `payload`, behind `msg`. -/
def payloadField (c : PayloadCase) : FieldDescriptor Descriptor where
  id := payloadNumber c
  label := .optional
  type := .message (.struct c.structType)
  quantified := true
  offset := 1
  oneof := true

/-- `…__field_descriptors` -/
def fieldDescriptors : Descriptor → List (FieldDescriptor Descriptor)
  | .struct .cmdGetMacAddress =>
      [scalarField 1 .int32 0]
  | .struct .respGetMacAddress =>
      [scalarField 1 .bytes 0,
       scalarField 2 .int32 1]
  | .struct .cmdGetMode => []
  | .struct .respGetMode =>
      [scalarField 1 .int32 0,
       scalarField 2 .int32 1]
  | .struct .cmdSetMode =>
      [scalarField 1 .int32 0]
  | .struct .respSetMode =>
      [scalarField 1 .int32 0]
  | .struct .cmdGetStatus => []
  | .struct .respGetStatus =>
      [scalarField 1 .int32 0]
  | .struct .cmdSetMacAddress =>
      [scalarField 1 .bytes 0,
       scalarField 2 .int32 1]
  | .struct .respSetMacAddress =>
      [scalarField 1 .int32 0]
  | .struct .cmdGetAPConfig => []
  | .struct .respGetAPConfig =>
      [scalarField 1 .bytes 0,
       scalarField 2 .bytes 1,
       scalarField 3 .int32 2,
       scalarField 4 .int32 3,
       scalarField 5 .enum 4,
       scalarField 6 .int32 5]
  | .struct .cmdSetAPConfig =>
      [stringField 1 0,
       stringField 2 1,
       stringField 3 2,
       scalarField 4 .bool 3,
       scalarField 5 .int32 4]
  | .struct .respSetAPConfig =>
      [scalarField 1 .int32 0]
  | .struct .cmdGetSoftAPConfig => []
  | .struct .respGetSoftAPConfig =>
      [scalarField 1 .bytes 0,
       scalarField 2 .bytes 1,
       scalarField 3 .int32 2,
       scalarField 4 .enum 3,
       scalarField 5 .int32 4,
       scalarField 6 .bool 5,
       scalarField 7 .int32 6,
       scalarField 8 .int32 7]
  | .struct .cmdSetSoftAPConfig =>
      [stringField 1 0,
       stringField 2 1,
       scalarField 3 .int32 2,
       scalarField 4 .enum 3,
       scalarField 5 .int32 4,
       scalarField 6 .bool 5,
       scalarField 7 .int32 6]
  | .struct .respSetSoftAPConfig =>
      [scalarField 1 .int32 0]
  | .scanResult =>
      [scalarField 1 .bytes 0,
       scalarField 2 .uint32 1,
       scalarField 3 .int32 2,
       scalarField 4 .bytes 3,
       scalarField 5 .enum 4]
  | .struct .cmdScanResult => []
  | .struct .respScanResult =>
      [scalarField 1 .uint32 0,
       repeatedField 2 .scanResult 1,
       scalarField 3 .int32 2]
  | .connectedSTAList =>
      [scalarField 1 .bytes 0,
       scalarField 2 .int32 1]
  | .struct .cmdConnectedSTA => []
  | .struct .respConnectedSTA =>
      [scalarField 1 .uint32 0,
       repeatedField 2 .connectedSTAList 1,
       scalarField 3 .int32 2]
  | .struct .cmdOTABegin => []
  | .struct .respOTABegin =>
      [scalarField 1 .int32 0]
  | .struct .cmdOTAWrite =>
      [scalarField 1 .bytes 0]
  | .struct .respOTAWrite =>
      [scalarField 1 .int32 0]
  | .struct .cmdOTAEnd => []
  | .struct .respOTAEnd =>
      [scalarField 1 .int32 0]
  | .configPayload => scalarField 1 .enum 0 :: payloadCases.map payloadField

/-- `…__number_ranges`, and how many blocks they have -/
def numberRanges : Descriptor → ℕ × List IntRange
  | .struct .cmdGetMacAddress => (1, [⟨1, 0⟩, ⟨0, 1⟩])
  | .struct .respGetMacAddress => (1, [⟨1, 0⟩, ⟨0, 2⟩])
  | .struct .cmdGetMode => (0, [])
  | .struct .respGetMode => (1, [⟨1, 0⟩, ⟨0, 2⟩])
  | .struct .cmdSetMode => (1, [⟨1, 0⟩, ⟨0, 1⟩])
  | .struct .respSetMode => (1, [⟨1, 0⟩, ⟨0, 1⟩])
  | .struct .cmdGetStatus => (0, [])
  | .struct .respGetStatus => (1, [⟨1, 0⟩, ⟨0, 1⟩])
  | .struct .cmdSetMacAddress => (1, [⟨1, 0⟩, ⟨0, 2⟩])
  | .struct .respSetMacAddress => (1, [⟨1, 0⟩, ⟨0, 1⟩])
  | .struct .cmdGetAPConfig => (0, [])
  | .struct .respGetAPConfig => (1, [⟨1, 0⟩, ⟨0, 6⟩])
  | .struct .cmdSetAPConfig => (1, [⟨1, 0⟩, ⟨0, 5⟩])
  | .struct .respSetAPConfig => (1, [⟨1, 0⟩, ⟨0, 1⟩])
  | .struct .cmdGetSoftAPConfig => (0, [])
  | .struct .respGetSoftAPConfig => (1, [⟨1, 0⟩, ⟨0, 8⟩])
  | .struct .cmdSetSoftAPConfig => (1, [⟨1, 0⟩, ⟨0, 7⟩])
  | .struct .respSetSoftAPConfig => (1, [⟨1, 0⟩, ⟨0, 1⟩])
  | .scanResult => (1, [⟨1, 0⟩, ⟨0, 5⟩])
  | .struct .cmdScanResult => (0, [])
  | .struct .respScanResult => (1, [⟨1, 0⟩, ⟨0, 3⟩])
  | .connectedSTAList => (1, [⟨1, 0⟩, ⟨0, 2⟩])
  | .struct .cmdConnectedSTA => (0, [])
  | .struct .respConnectedSTA => (1, [⟨1, 0⟩, ⟨0, 3⟩])
  | .struct .cmdOTABegin => (0, [])
  | .struct .respOTABegin => (1, [⟨1, 0⟩, ⟨0, 1⟩])
  | .struct .cmdOTAWrite => (1, [⟨1, 0⟩, ⟨0, 1⟩])
  | .struct .respOTAWrite => (1, [⟨1, 0⟩, ⟨0, 1⟩])
  | .struct .cmdOTAEnd => (0, [])
  | .struct .respOTAEnd => (1, [⟨1, 0⟩, ⟨0, 1⟩])
  | .configPayload => (2, [⟨1, 0⟩, ⟨10, 1⟩, ⟨0, 35⟩])

def espTable (d : Descriptor) : MessageDescriptor Descriptor where
  fields := fieldDescriptors d
  nFieldRanges := (numberRanges d).1
  fieldRanges := (numberRanges d).2

theorem espTable_wellFormed (d : Descriptor) : (espTable d).WellFormed := by
  cases d with
  | struct t => cases t <;> decide
  | scanResult => decide
  | connectedSTAList => decide
  | configPayload => decide

/-! ## What the commands see -/

section View

variable {μ : Type} (m : Message Descriptor μ)

/-- A member of 32 bits. -/
def wordAt (offset : ℕ) : UInt32 :=
  match m.members[offset]? with
  | some (.optional _ (.word v)) => v
  | _ => 0

def intAt (offset : ℕ) : Int32 := (wordAt m offset).toInt32

def boolAt (offset : ℕ) : Bool :=
  match m.members[offset]? with
  | some (.optional _ (.bool v)) => v
  | _ => false

/-- The bytes of a `ProtobufCBinaryData`. -/
def bytesAt (offset : ℕ) : List UInt8 :=
  match m.members[offset]? with
  | some (.optional _ (.bytes data)) => data
  | _ => []

/-- The `data` pointer of a `ProtobufCBinaryData`: no block is allocated for no bytes. -/
def dataAt (offset : ℕ) : BinaryData :=
  if (bytesAt m offset).isEmpty then none else some (bytesAt m offset)

/-- The messages of an array. -/
def messagesAt (offset : ℕ) : List μ :=
  match m.members[offset]? with
  | some (.repeated items) => items.filterMap fun
      | .message ptr => ptr
      | _ => none
  | _ => []

/-- The case of a oneof and the pointer in its union. -/
def oneofAt (offset : ℕ) : UInt32 × Option μ :=
  match m.members[offset]? with
  | some (.oneof oneofCase (.message ptr)) => (oneofCase, ptr)
  | _ => (0, none)

/-- A flag `has_…`. -/
def hasAt (offset : ℕ) : Bool :=
  match m.members[offset]? with
  | some (.optional has _) => has
  | _ => false

end View

def scanResultOf {μ : Type} (m : Message Descriptor μ) : ScanResult where
  ssid := bytesAt m 0
  chnl := wordAt m 1
  rssi := intAt m 2
  bssid := bytesAt m 3
  ecn := intAt m 4

def connectedSTAOf {μ : Type} (m : Message Descriptor μ) : ConnectedSTA where
  mac := bytesAt m 0
  rssi := intAt m 1

/-- The fields of a struct that a command reads. -/
def contentsOf (m : Msg Descriptor 2) : (t : StructType) → Contents t
  | .respGetMacAddress => { mac := dataAt m.body 0, resp := intAt m.body 1 : RespGetMacAddress }
  | .respGetMode => { mode := intAt m.body 0, resp := intAt m.body 1 : RespGetMode }
  | .respGetAPConfig =>
      { ssid := dataAt m.body 0, bssid := dataAt m.body 1, rssi := intAt m.body 2
        chnl := intAt m.body 3, ecn := intAt m.body 4, resp := intAt m.body 5 : RespGetAPConfig }
  | .respGetSoftAPConfig =>
      { ssid := dataAt m.body 0, pwd := dataAt m.body 1, chnl := intAt m.body 2
        ecn := intAt m.body 3, maxConn := intAt m.body 4, ssidHidden := boolAt m.body 5
        bw := intAt m.body 6
        resp := intAt m.body 7 : RespGetSoftAPConfig }
  | .respScanResult =>
      { count := wordAt m.body 0, entries := (messagesAt m.body 1).map scanResultOf
        resp := intAt m.body 2 : RespScanResult }
  | .respConnectedSTA =>
      { num := wordAt m.body 0, stations := (messagesAt m.body 1).map connectedSTAOf
        resp := intAt m.body 2 : RespConnectedSTA }
  | .respSetMode => { resp := intAt m.body 0 : RespStatus }
  | .respGetStatus => { resp := intAt m.body 0 : RespStatus }
  | .respSetMacAddress => { resp := intAt m.body 0 : RespStatus }
  | .respSetAPConfig => { resp := intAt m.body 0 : RespStatus }
  | .respSetSoftAPConfig => { resp := intAt m.body 0 : RespStatus }
  | .respOTABegin => { resp := intAt m.body 0 : RespStatus }
  | .respOTAWrite => { resp := intAt m.body 0 : RespStatus }
  | .respOTAEnd => { resp := intAt m.body 0 : RespStatus }
  | .cmdGetMacAddress => ()
  | .cmdGetMode => ()
  | .cmdSetMode => ()
  | .cmdGetAPConfig => ()
  | .cmdSetAPConfig => ()
  | .cmdGetSoftAPConfig => ()
  | .cmdSetSoftAPConfig => ()
  | .cmdGetStatus => ()
  | .cmdScanResult => ()
  | .cmdConnectedSTA => ()
  | .cmdSetMacAddress => ()
  | .cmdOTABegin => ()
  | .cmdOTAWrite => ()
  | .cmdOTAEnd => ()

/-- The member of the union that the case names. -/
def payloadOf (m : Msg Descriptor 3) : Option Oneof :=
  (oneofAt m.body 1).2.bind fun sub =>
    (payloadCases.find? fun c => payloadNumber c = (oneofAt m.body 1).1).map fun c =>
      { payloadCase := c, contents := contentsOf sub c.structType }

def configPayloadOf (m : Msg Descriptor 3) : EspHostedConfigPayload where
  hasMsg := hasAt m.body 0
  msg := intAt m.body 0
  payload := payloadOf m

/-- `esp_hosted_config_payload__unpack` -/
def espHostedConfigPayloadUnpack (data : List UInt8) : Option EspHostedConfigPayload :=
  (Msg.unpack espTable 3 .configPayload data).map configPayloadOf

/-- `esp_hosted_config_payload__pack` -/
def espHostedConfigPayloadPack (m : Msg Descriptor 3) : List UInt8 := Msg.pack espTable 3 m

/-- `esp_hosted_config_payload__get_packed_size` -/
def espHostedConfigPayloadGetPackedSize (m : Msg Descriptor 3) : ℕ :=
  Msg.getPackedSize espTable 3 m

end Protobuf

end EspHosted
