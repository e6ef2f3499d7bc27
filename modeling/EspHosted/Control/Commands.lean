import Mathlib.Data.Int.Notation
import Mathlib.Data.Nat.Notation
import Mathlib.Logic.Basic

/-!
# The responses of the commands

An unpacked `EspHostedConfigPayload` holds one message in a C union: the pointer
to it and the tag `payload_case`. Every command reads the union through the
member named after its own response, and none looks at the tag. `readMember` is
such a read; under the name of another struct type it finds `confused` bytes and
says so.
-/

namespace EspHosted

namespace Control

/-- `SUCCESS`, `FAILURE` and the codes of `wifi_set_ap_config` -/
def SUCCESS : ℤ := 0
def FAILURE : ℤ := -1
def NOT_CONNECTED : Int32 := 1
def NO_AP_FOUND : Int32 := 2
def INVALID_PASSWORD : Int32 := 3

def macLength : ℕ := 19
def maxSsidLength : ℕ := 32
def maxPwdLength : ℕ := 64
def statusLength : ℕ := 14

/-! ## The messages -/

/-- The struct types the members of the union point to. -/
inductive StructType where
  | cmdGetMacAddress
  | respGetMacAddress
  | cmdGetMode
  | respGetMode
  | cmdSetMode
  | respSetMode
  | cmdGetAPConfig
  | respGetAPConfig
  | cmdSetAPConfig
  | respSetAPConfig
  | cmdGetSoftAPConfig
  | respGetSoftAPConfig
  | cmdSetSoftAPConfig
  | respSetSoftAPConfig
  | cmdGetStatus
  | respGetStatus
  | cmdScanResult
  | respScanResult
  | cmdConnectedSTA
  | respConnectedSTA
  | cmdSetMacAddress
  | respSetMacAddress
  | cmdOTABegin
  | respOTABegin
  | cmdOTAWrite
  | respOTAWrite
  | cmdOTAEnd
  | respOTAEnd
  deriving DecidableEq, Repr

/-- `EspHostedConfigPayload__PayloadCase` without `NOT_SET` -/
inductive PayloadCase where
  | cmdGetMacAddress
  | respGetMacAddress
  | cmdGetWifiMode
  | respGetWifiMode
  | cmdSetWifiMode
  | respSetWifiMode
  | cmdGetApConfig
  | respGetApConfig
  | cmdSetApConfig
  | respSetApConfig
  | cmdGetSoftapConfig
  | respGetSoftapConfig
  | cmdSetSoftapConfig
  | respSetSoftapConfig
  | cmdDisconnectAp
  | respDisconnectAp
  | cmdStopSoftap
  | respStopSoftap
  | cmdScanApList
  | respScanApList
  | cmdConnectedStasList
  | respConnectedStasList
  | cmdSetMacAddress
  | respSetMacAddress
  | cmdSetPowerSaveMode
  | respSetPowerSaveMode
  | cmdGetPowerSaveMode
  | respGetPowerSaveMode
  | cmdOtaBegin
  | respOtaBegin
  | cmdOtaWrite
  | respOtaWrite
  | cmdOtaEnd
  | respOtaEnd
  deriving DecidableEq, Repr

/-- The declared type of each member of the union. -/
def PayloadCase.structType : PayloadCase → StructType
  | .cmdGetMacAddress => .cmdGetMacAddress
  | .respGetMacAddress => .respGetMacAddress
  | .cmdGetWifiMode => .cmdGetMode
  | .respGetWifiMode => .respGetMode
  | .cmdSetWifiMode => .cmdSetMode
  | .respSetWifiMode => .respSetMode
  | .cmdGetApConfig => .cmdGetAPConfig
  | .respGetApConfig => .respGetAPConfig
  | .cmdSetApConfig => .cmdSetAPConfig
  | .respSetApConfig => .respSetAPConfig
  | .cmdGetSoftapConfig => .cmdGetSoftAPConfig
  | .respGetSoftapConfig => .respGetSoftAPConfig
  | .cmdSetSoftapConfig => .cmdSetSoftAPConfig
  | .respSetSoftapConfig => .respSetSoftAPConfig
  | .cmdDisconnectAp => .cmdGetStatus
  | .respDisconnectAp => .respGetStatus
  | .cmdStopSoftap => .cmdGetStatus
  | .respStopSoftap => .respGetStatus
  | .cmdScanApList => .cmdScanResult
  | .respScanApList => .respScanResult
  | .cmdConnectedStasList => .cmdConnectedSTA
  | .respConnectedStasList => .respConnectedSTA
  | .cmdSetMacAddress => .cmdSetMacAddress
  | .respSetMacAddress => .respSetMacAddress
  | .cmdSetPowerSaveMode => .cmdSetMode
  | .respSetPowerSaveMode => .respSetMode
  | .cmdGetPowerSaveMode => .cmdGetMode
  | .respGetPowerSaveMode => .respGetMode
  | .cmdOtaBegin => .cmdOTABegin
  | .respOtaBegin => .respOTABegin
  | .cmdOtaWrite => .cmdOTAWrite
  | .respOtaWrite => .respOTAWrite
  | .cmdOtaEnd => .cmdOTAEnd
  | .respOtaEnd => .respOTAEnd

/-- The `data` pointer of a `ProtobufCBinaryData`; `none` is `NULL`. -/
abbrev BinaryData := Option (List UInt8)

structure RespGetMacAddress where
  mac : BinaryData
  resp : Int32

structure RespGetMode where
  mode : Int32
  resp : Int32

structure RespGetAPConfig where
  ssid : BinaryData
  bssid : BinaryData
  rssi : Int32
  chnl : Int32
  ecn : Int32
  resp : Int32

structure RespGetSoftAPConfig where
  ssid : BinaryData
  pwd : BinaryData
  chnl : Int32
  ecn : Int32
  maxConn : Int32
  ssidHidden : Bool
  bw : Int32
  resp : Int32

structure ScanResult where
  ssid : List UInt8
  bssid : List UInt8
  chnl : UInt32
  rssi : Int32
  ecn : Int32

structure RespScanResult where
  count : UInt32
  entries : List ScanResult
  resp : Int32

structure ConnectedSTA where
  mac : List UInt8
  rssi : Int32

structure RespConnectedSTA where
  num : UInt32
  stations : List ConnectedSTA
  resp : Int32

/-- The response structs whose only field is `resp`. -/
structure RespStatus where
  resp : Int32

/-- The fields of a struct that a command reads; none reads a request. -/
def Contents : StructType → Type
  | .respGetMacAddress => RespGetMacAddress
  | .respGetMode => RespGetMode
  | .respGetAPConfig => RespGetAPConfig
  | .respGetSoftAPConfig => RespGetSoftAPConfig
  | .respScanResult => RespScanResult
  | .respConnectedSTA => RespConnectedSTA
  | .respSetMode => RespStatus
  | .respGetStatus => RespStatus
  | .respSetMacAddress => RespStatus
  | .respSetAPConfig => RespStatus
  | .respSetSoftAPConfig => RespStatus
  | .respOTABegin => RespStatus
  | .respOTAWrite => RespStatus
  | .respOTAEnd => RespStatus
  | _ => Unit

/-- A set oneof: the tag, and the message of the type the tag stands for. -/
structure Oneof where
  payloadCase : PayloadCase
  contents : Contents payloadCase.structType

/-- What `esp_hosted_config_payload__unpack` returns; `none` is `NOT_SET`, with a
`NULL` pointer in the union. -/
structure EspHostedConfigPayload where
  hasMsg : Bool
  msg : Int32
  payload : Option Oneof

/-- What a struct of any type looks like when it is read as one of type `t`. -/
abbrev Confused := (t : StructType) → Contents t

/-- A read of the union through `member`, and whether the message is of
another type than that member. -/
def readMember (member : PayloadCase) (resp : EspHostedConfigPayload) (confused : Confused) :
    Option (Contents member.structType × Bool) :=
  match resp.payload with
  | none => none
  | some p =>
      if h : p.payloadCase.structType = member.structType then
        some (h ▸ p.contents, false)
      else
        some (confused member.structType, true)

/-! ## What a command does with its response -/

inductive CallerField where
  | mac
  | mode
  | stationStatus
  | stationSsid
  | stationBssid
  | stationChannel
  | stationRssi
  | stationEncryptionMode
  | softapSsid
  | softapPwd
  | softapChannel
  | softapEncryptionMode
  | softapMaxConnections
  | softapSsidHidden
  | softapBandwidth
  | count
  | num
  | powerSaveMode
  deriving DecidableEq, Repr

/-- A `strncpy` of `n` characters whose last one is then cleared, or an
assignment. -/
inductive Stored where
  | strncpy (src : List UInt8) (n : ℕ)
  | strncpyText (src : String) (n : ℕ)
  | assign (x : ℤ)
  deriving DecidableEq

structure CallerWrite where
  field : CallerField
  stored : Stored
  deriving DecidableEq

/-- The returned number, or the returned list; an entry behind the received ones is
`none`. -/
inductive Ret where
  | int (x : ℤ)
  | scanList (l : Option (List (Option ScanResult)))
  | stationsList (l : Option (List (Option ConnectedSTA)))

def Ret.isSuccess : Ret → Bool
  | .int x => x == SUCCESS
  | .scanList l => l.isSome
  | .stationsList l => l.isSome

structure Response where
  ret : Ret
  writes : List CallerWrite

/-- The label `err1`. -/
def err1 : Response := { ret := .int FAILURE, writes := [] }

/-- The part of a command behind `esp_hosted_config_payload__unpack`: the test of
its member of the union, then `body`. The result also says whether the message was
read as one of another type. -/
def respond (member : PayloadCase) (failed : Response)
    (body : Contents member.structType → Response) (resp : EspHostedConfigPayload)
    (confused : Confused) : Response × Bool :=
  match readMember member resp confused with
  | none => (failed, false)
  | some (contents, mistyped) => (body contents, mistyped)

/-- The commands that only look at `resp`. -/
def statusOnly (r : RespStatus) : Response :=
  if r.resp ≠ 0 then err1 else { ret := .int SUCCESS, writes := [] }

def wifiGetMac := respond .respGetMacAddress err1 fun (r : RespGetMacAddress) =>
  match r.mac with
  | none => err1
  | some mac =>
      if r.resp ≠ 0 then
        err1
      else
        { ret := .int SUCCESS, writes := [⟨.mac, .strncpy mac macLength⟩] }

def wifiSetMac := respond .respSetMacAddress err1 statusOnly

def wifiGetMode := respond .respGetWifiMode err1 fun (r : RespGetMode) =>
  if r.resp ≠ 0 then
    err1
  else
    { ret := .int SUCCESS, writes := [⟨.mode, .assign r.mode.toInt⟩] }

def wifiSetMode := respond .respSetWifiMode err1 statusOnly

def wifiSetApConfig := respond .respSetApConfig err1 fun (r : RespStatus) =>
  if r.resp = INVALID_PASSWORD then
    { ret := .int INVALID_PASSWORD.toInt, writes := [] }
  else if r.resp = NO_AP_FOUND then
    { ret := .int NO_AP_FOUND.toInt, writes := [] }
  else if r.resp ≠ 0 then
    err1
  else
    { ret := .int SUCCESS, writes := [] }

/-- A `resp` other than the three it knows counts as a success without data. -/
def wifiGetApConfig := respond .respGetApConfig err1 fun (r : RespGetAPConfig) =>
  if r.resp = NOT_CONNECTED then
    { err1 with writes := [⟨.stationStatus, .strncpyText "not_connected" statusLength⟩] }
  else if r.resp = -1 then
    { err1 with writes := [⟨.stationStatus, .strncpyText "failure" statusLength⟩] }
  else if r.resp = 0 then
    { ret := .int SUCCESS
      writes :=
        [⟨.stationStatus, .strncpyText "success" statusLength⟩] ++
        (r.ssid.toList.map fun ssid => ⟨.stationSsid, .strncpy ssid maxSsidLength⟩) ++
        (r.bssid.toList.map fun bssid => ⟨.stationBssid, .strncpy bssid macLength⟩) ++
        [⟨.stationChannel, .assign r.chnl.toInt⟩, ⟨.stationRssi, .assign r.rssi.toInt⟩,
          ⟨.stationEncryptionMode, .assign r.ecn.toInt⟩] }
  else
    { ret := .int SUCCESS, writes := [] }

def wifiDisconnectAp := respond .respDisconnectAp err1 statusOnly

def wifiSetSoftapConfig := respond .respSetSoftapConfig err1 statusOnly

def wifiGetSoftapConfig := respond .respGetSoftapConfig err1 fun (r : RespGetSoftAPConfig) =>
  if r.resp ≠ 0 then
    err1
  else
    { ret := .int SUCCESS
      writes :=
        (r.ssid.toList.map fun ssid => ⟨.softapSsid, .strncpy ssid maxSsidLength⟩) ++
        (r.pwd.toList.map fun pwd => ⟨.softapPwd, .strncpy pwd maxPwdLength⟩) ++
        [⟨.softapChannel, .assign r.chnl.toInt⟩,
          ⟨.softapEncryptionMode, .assign r.ecn.toInt⟩,
          ⟨.softapMaxConnections, .assign r.maxConn.toInt⟩,
          ⟨.softapSsidHidden, .assign r.ssidHidden.toInt⟩,
          ⟨.softapBandwidth, .assign r.bw.toInt⟩] }

def wifiStopSoftap := respond .respStopSoftap err1 statusOnly

/-- The loop runs to `count`, whatever the number of entries. -/
def wifiApScanList := respond .respScanApList { ret := .scanList none, writes := [] }
  fun (r : RespScanResult) =>
    if r.resp ≠ 0 then
      { ret := .scanList none, writes := [] }
    else if r.count = 0 then
      { ret := .scanList none, writes := [] }
    else
      { ret := .scanList (some ((List.range r.count.toNat).map fun i => r.entries[i]?))
        writes := [⟨.count, .assign r.count.toInt32.toInt⟩] }

def wifiConnectedStationsList :=
  respond .respConnectedStasList { ret := .stationsList none, writes := [] }
    fun (r : RespConnectedSTA) =>
      if r.resp ≠ 0 then
        { ret := .stationsList none, writes := [] }
      else
        { ret := .stationsList
            (if r.num = 0 then none
              else some ((List.range r.num.toNat).map fun i => r.stations[i]?))
          writes := [⟨.num, .assign r.num.toInt32.toInt⟩] }

def wifiSetPowerSaveMode := respond .respSetPowerSaveMode err1 statusOnly

/-- Before the request the command has stored `WIFI_PS_INVALID` for its caller. -/
def wifiGetPowerSaveMode := respond .respGetPowerSaveMode err1 fun (r : RespGetMode) =>
  if r.resp ≠ 0 then
    err1
  else
    { ret := .int SUCCESS, writes := [⟨.powerSaveMode, .assign r.mode.toInt⟩] }

def espOtaBegin := respond .respOtaBegin err1 statusOnly

def espOtaWrite := respond .respOtaWrite err1 statusOnly

def espOtaEnd := respond .respOtaEnd err1 statusOnly

end Control

end EspHosted
