-- SUMMARY: The CONNECT branch of a new connection: what it reads, what it records, and which packets it records as they are.
import NioevMqtt.Broker.Threads
import NioevMqtt.Connection.BinaryDecoder

/-!
# Decoding CONNECT

What a `CONNECT` packet consists of depends on the protocol version and on its flags. The
branch of `handlePacketReceived` for new connections reads it field by field; every field
shifts those behind it.
-/

namespace NioevMqtt

/-! ## The branch -/

/-- What the branch reads and changes of a connection. -/
structure ConnectReceiver where
  client : ConnectionId
  conn : MQTTClientConnection := {}
  mConnectProperties : PropertyList := []
  /-- The changes given to `app.requestChange`. -/
  requests : List ChangeRequest := []

namespace ConnectReceiver

variable {α : Type*}

def violation (c : ConnectReceiver) (reason : String) :
    ConnectReceiver × Option ReceiveException :=
  (c, some (.protocolViolation reason))

/-- `setWill`: the properties of the message stay empty. -/
def setWill (c : ConnectReceiver) (topic : ByteString) (msg : List UInt8) (qos : QoS)
    (retain : Retain) : ConnectReceiver :=
  { c with conn := { c.conn with mWill := some { topic, payload := msg, qos, retain } } }

/-- The last two calls of the branch. -/
def requestLogin (c : ConnectReceiver) (clientId : ByteString) (cleanSession : CleanSession) :
    ConnectReceiver :=
  { c with
    conn := { c.conn with mState := .connecting }
    requests := c.requests ++ [.loginClient c.client clientId cleanSession] }

def rejectVersion [Libnioev] (c : ConnectReceiver) : ConnectReceiver :=
  { c with
    conn :=
      { c.conn with
        mState := .invalidProtocolVersion
        sent := c.conn.sent ++ [.fromData (MQTTMessageType.connack.toUInt8 <<< 4) [2, 0, 1]] } }

variable [BinaryDecoder]

/-- The branch goes on with what has been read, or is left. -/
def decoding (c : ConnectReceiver) (read : Option (α × List UInt8))
    (next : α → List UInt8 → ConnectReceiver × Option ReceiveException) :
    ConnectReceiver × Option ReceiveException :=
  match read with
  | none => (c, some BinaryDecoder.exception)
  | some (x, bytes) => next x bytes

/-- User name and password: read where their flags are set, and not used. -/
def skipString (c : ConnectReceiver) (flag : UInt8) (bytes : List UInt8)
    (next : List UInt8 → ConnectReceiver × Option ReceiveException) :
    ConnectReceiver × Option ReceiveException :=
  if flag ≠ 0 then c.decoding (BinaryDecoder.decodeString bytes) fun _ bytes => next bytes
  else next bytes

def handleCredentials (c : ConnectReceiver) (connectFlags : UInt8) (clientId : ByteString)
    (cleanSession : CleanSession) (bytes : List UInt8) :
    ConnectReceiver × Option ReceiveException :=
  c.skipString (connectFlags &&& 0x80) bytes fun bytes =>
    c.skipString (connectFlags &&& 0x40) bytes fun _ =>
      (c.requestLogin clientId cleanSession, none)

def handleWill (c : ConnectReceiver) (connectFlags : UInt8) (clientId : ByteString)
    (cleanSession : CleanSession) (bytes : List UInt8) :
    ConnectReceiver × Option ReceiveException :=
  if connectFlags &&& 0x4 ≠ 0 then
    -- In version 5 the properties of the will come first; they are not read.
    c.decoding (BinaryDecoder.decodeString bytes) fun willTopic bytes =>
      if willTopic = [] then c.violation "Invalid will topic"
      else
        c.decoding (BinaryDecoder.decodeBytesWithPrefixLength bytes) fun willMessage bytes =>
          let willQos := (connectFlags &&& 0x18) >>> 3
          let willRetain := if connectFlags &&& 0x20 = 0 then Retain.no else .yes
          if willQos ≥ 3 then c.violation "Invalid will qos"
          else
            (c.setWill willTopic willMessage (QoS.ofUInt8 willQos) willRetain).handleCredentials
              connectFlags clientId cleanSession bytes
  else c.handleCredentials connectFlags clientId cleanSession bytes

def handlePayload (c : ConnectReceiver) (connectFlags : UInt8) (bytes : List UInt8) :
    ConnectReceiver × Option ReceiveException :=
  c.decoding (BinaryDecoder.decodeString bytes) fun clientId bytes =>
    let cleanSession := if connectFlags &&& 0x2 = 0 then CleanSession.no else .yes
    -- The rule of version 4, for both versions.
    if clientId = [] ∧ cleanSession = .no then c.violation "Invalid client id"
    else c.handleWill connectFlags clientId cleanSession bytes

variable [Libnioev]

/-- What is read behind the protocol level. -/
def handleVersion (c : ConnectReceiver) (version : MQTTVersion) (bytes : List UInt8) :
    ConnectReceiver × Option ReceiveException :=
  let c := { c with conn := { c.conn with mMQTTVersion := version } }
  c.decoding (BinaryDecoder.decodeByte bytes) fun connectFlags bytes =>
    c.decoding (BinaryDecoder.decode2Bytes bytes) fun keepAlive bytes =>
      let c := { c with conn := { c.conn with mKeepAliveIntervalSeconds := keepAlive } }
      if connectFlags &&& 0x1 ≠ 0 then c.violation "Invalid connect flags bit set"
      else if version = .v5 then
        c.decoding (Libnioev.decodeProperties bytes) fun properties bytes =>
          { c with mConnectProperties := properties }.handlePayload connectFlags bytes
      else c.handlePayload connectFlags bytes

def protocolName : List UInt8 := [0x00, 0x04, 0x4d, 0x51, 0x54, 0x54]

def handleConnect (c : ConnectReceiver) (bytes : List UInt8) :
    ConnectReceiver × Option ReceiveException :=
  if bytes.length < 6 then c.violation "Missing MQTT protocol specifier"
  else if bytes.take 6 ≠ protocolName then c.violation "Invalid protocol version"
  else
    c.decoding (BinaryDecoder.decodeByte (bytes.drop 6)) fun protocolLevel bytes =>
      -- Nothing is thrown: the connection is closed once the `CONNACK` has been sent.
      if protocolLevel ≠ 4 ∧ protocolLevel ≠ 5 then (c.rejectVersion, none)
      else c.handleVersion (if protocolLevel = 4 then .v4 else .v5) bytes

/-- `handlePacketReceived` for a connection in the state `INITIAL`. -/
def handlePacketReceived : PacketHandler ConnectReceiver := fun recvData c =>
  if recvData.messageType = .connect then c.handleConnect recvData.currentReceiveBuffer
  else c.violation "Packet not allowed here"

end ConnectReceiver

/-! ## The packets -/

/-- A string a packet can hold. -/
abbrev MQTTString := { s : ByteString // s.length ≤ maxStringLength }

structure ConnectWill where
  topic : MQTTString
  message : MQTTString
  qos : QoS
  retain : Retain
  /-- Version 5 only. -/
  properties : PropertyList := []
  topic_ne : topic.val ≠ []

/-- A well-formed `CONNECT`. In version 4 a client without an id has to ask for a clean
session. -/
structure ConnectContents where
  version : MQTTVersion
  keepAlive : UInt16
  cleanSession : CleanSession
  clientId : MQTTString
  /-- Version 5 only. -/
  connectProperties : PropertyList := []
  will : Option ConnectWill := none
  username : Option MQTTString := none
  password : Option MQTTString := none
  clean_of_empty : version = .v4 → clientId.val = [] → cleanSession = .yes

def MQTTVersion.protocolLevel : MQTTVersion → UInt8
  | .v4 => 4
  | .v5 => 5

namespace ConnectContents

/-- The flags of a will: that it is there, its quality of service and its retain flag. -/
def willFlags : Option (QoS × Retain) → UInt8
  | none => 0x00
  | some (qos, .no) => qos.toUInt8 <<< 3 ||| 0x04
  | some (qos, .yes) => qos.toUInt8 <<< 3 ||| 0x24

def flagsByte (cleanSession : CleanSession) (will : Option (QoS × Retain))
    (username password : Bool) : UInt8 :=
  (if cleanSession = .yes then 0x02 else 0x00) ||| willFlags will |||
    (if password then 0x40 else 0x00) ||| (if username then 0x80 else 0x00)

def connectFlags (p : ConnectContents) : UInt8 :=
  flagsByte p.cleanSession (p.will.map fun will => (will.qos, will.retain)) p.username.isSome
    p.password.isSome

/-- How many of user name and password there are. -/
def credentials (p : ConnectContents) : Nat := p.username.toList.length + p.password.toList.length

variable [Libnioev]

/-- Properties are a part of version 5. -/
def propertyBytes (p : ConnectContents) (properties : PropertyList) : List UInt8 :=
  if p.version = .v5 then Libnioev.encodePropertyList properties else []

/-- Topic and message. -/
def willFields (will : ConnectWill) : List UInt8 :=
  Libnioev.encodeString will.topic.val ++ Libnioev.encodeString will.message.val

def willBytes (p : ConnectContents) : List UInt8 :=
  match p.will with
  | none => []
  | some will => p.propertyBytes will.properties ++ willFields will

def optionalString : Option MQTTString → List UInt8
  | none => []
  | some s => Libnioev.encodeString s.val

def credentialBytes (p : ConnectContents) : List UInt8 :=
  optionalString p.username ++ optionalString p.password

/-- The packet behind its fixed header. -/
def encode (p : ConnectContents) : List UInt8 :=
  ConnectReceiver.protocolName ++ p.version.protocolLevel :: p.connectFlags ::
    (bigEndianBytes p.keepAlive ++ (p.propertyBytes p.connectProperties ++
      (Libnioev.encodeString p.clientId.val ++ (p.willBytes ++ p.credentialBytes))))

end ConnectContents

/-! ## What is recorded -/

def MQTTPacket.willFields (willMsg : MQTTPacket) : ByteString × List UInt8 × QoS × Retain :=
  (willMsg.topic, willMsg.payload, willMsg.qos, willMsg.retain)

def ConnectWill.fields (will : ConnectWill) : ByteString × List UInt8 × QoS × Retain :=
  (will.topic.val, will.message.val, will.qos, will.retain)

namespace ConnectContents

/-- The packet is accepted, and what it says is recorded. -/
structure Recorded (p : ConnectContents) (c after : ConnectReceiver) : Prop where
  version : after.conn.mMQTTVersion = p.version
  keepAlive : after.conn.mKeepAliveIntervalSeconds = p.keepAlive
  connectProperties : p.version = .v5 → after.mConnectProperties = p.connectProperties
  will : after.conn.mWill.map MQTTPacket.willFields = p.will.map ConnectWill.fields
  requests : after.requests = c.requests ++ [.loginClient c.client p.clientId.val p.cleanSession]
  connecting : after.conn.mState = .connecting

variable [Libnioev]

/-- The bytes begin with this number of strings. -/
def StringsFollow : Nat → List UInt8 → Prop
  | 0, _ => True
  | n + 1, bytes => ∃ s : MQTTString, ∃ rest,
      bytes = Libnioev.encodeString s.val ++ rest ∧ StringsFollow n rest

/-- The will is found where it is read. The properties that come before it in version 5 are
not skipped: topic and message have to be the bytes that begin with them. -/
def WillInPlace (p : ConnectContents) (will : ConnectWill) : Prop :=
  p.version = .v4 ∨ ∃ rest,
    Libnioev.encodePropertyList will.properties ++ (willFields will ++ p.credentialBytes) =
      willFields will ++ rest ∧ StringsFollow p.credentials rest

/-- There is a client id or a clean session is asked for, and a will is found where it is
read; without one, none has been recorded before. -/
def ReadAsWritten (p : ConnectContents) (c : ConnectReceiver) : Prop :=
  (p.clientId.val = [] → p.cleanSession = .yes) ∧
    match p.will with
    | none => c.conn.mWill = none
    | some will => p.WillInPlace will

end ConnectContents

/-! ## The fields, one after another -/

theorem protocolLevel_cases (version : MQTTVersion) :
    ¬ (version.protocolLevel ≠ 4 ∧ version.protocolLevel ≠ 5) ∧
      (if version.protocolLevel = 4 then MQTTVersion.v4 else .v5) = version := by
  cases version with
  | v4 => decide
  | v5 => decide

namespace ConnectContents

theorem bits_flagsByte (cleanSession : CleanSession) (will : Option (QoS × Retain))
    (username password : Bool) :
    let connectFlags := flagsByte cleanSession will username password
    connectFlags &&& 0x1 = 0 ∧
      (if connectFlags &&& 0x2 = 0 then CleanSession.no else .yes) = cleanSession ∧
      (connectFlags &&& 0x80 ≠ 0 ↔ username = true) ∧
      (connectFlags &&& 0x40 ≠ 0 ↔ password = true) ∧
      (connectFlags &&& 0x4 ≠ 0 ↔ will.isSome = true) := by
  rcases will with _ | ⟨qos, retain⟩
  · cases cleanSession <;> cases username <;> cases password <;> decide
  · cases cleanSession <;> cases username <;> cases password <;> cases qos <;> cases retain <;>
      decide

theorem willBits_flagsByte (cleanSession : CleanSession) (qos : QoS) (retain : Retain)
    (username password : Bool) :
    let connectFlags := flagsByte cleanSession (some (qos, retain)) username password
    (connectFlags &&& 0x18) >>> 3 = qos.toUInt8 ∧ ¬ qos.toUInt8 ≥ 3 ∧
      (if connectFlags &&& 0x20 = 0 then Retain.no else .yes) = retain := by
  cases cleanSession <;> cases username <;> cases password <;> cases qos <;> cases retain <;>
    decide

/-- What the flags of a packet say. -/
theorem bits_connectFlags (p : ConnectContents) :
    p.connectFlags &&& 0x1 = 0 ∧
      (if p.connectFlags &&& 0x2 = 0 then CleanSession.no else .yes) = p.cleanSession ∧
      (p.connectFlags &&& 0x80 ≠ 0 ↔ p.username.isSome = true) ∧
      (p.connectFlags &&& 0x40 ≠ 0 ↔ p.password.isSome = true) ∧
      (p.connectFlags &&& 0x4 ≠ 0 ↔ p.will.isSome = true) := by
  rw [← Option.isSome_map (f := fun will : ConnectWill => (will.qos, will.retain))]
  exact bits_flagsByte _ _ _ _

theorem willBits_connectFlags {p : ConnectContents} {will : ConnectWill}
    (hwill : p.will = some will) :
    (p.connectFlags &&& 0x18) >>> 3 = will.qos.toUInt8 ∧ ¬ will.qos.toUInt8 ≥ 3 ∧
      (if p.connectFlags &&& 0x20 = 0 then Retain.no else .yes) = will.retain := by
  rw [connectFlags, hwill]
  exact willBits_flagsByte _ _ _ _ _

end ConnectContents

/-! ## What the branch reads -/

namespace ConnectReceiver

variable [BinaryDecoder] {c after : ConnectReceiver} {bytes : List UInt8}

omit [BinaryDecoder] in
theorem violation_ne (reason : String) : c.violation reason ≠ (after, none) := by
  intro h
  cases h

theorem decoding_accepts {α : Type*} {read : Option (α × List UInt8)}
    {next : α → List UInt8 → ConnectReceiver × Option ReceiveException} :
    c.decoding read next = (after, none) ↔
      ∃ x rest, read = some (x, rest) ∧ next x rest = (after, none) := by
  constructor
  · intro h
    cases read with
    | none => cases h
    | some result => exact ⟨result.1, result.2, rfl, h⟩
  · rintro ⟨x, rest, rfl, h⟩
    exact h

variable [Libnioev] [LawfulBinaryDecoder]

omit [LawfulBinaryDecoder] in
theorem decodingString_accepts {read : Option (ByteString × List UInt8)}
    (hread : ∀ s rest, read = some (s, rest) ↔
      s.length ≤ maxStringLength ∧ bytes = Libnioev.encodeString s ++ rest)
    {next : ByteString → List UInt8 → ConnectReceiver × Option ReceiveException} :
    c.decoding read next = (after, none) ↔
      ∃ s : MQTTString, ∃ rest,
        bytes = Libnioev.encodeString s.val ++ rest ∧ next s.val rest = (after, none) := by
  rw [decoding_accepts]
  simp only [hread]
  constructor
  · rintro ⟨s, rest, ⟨hlength, hbytes⟩, h⟩
    exact ⟨⟨s, hlength⟩, rest, hbytes, h⟩
  · rintro ⟨s, rest, hbytes, h⟩
    exact ⟨s.val, rest, ⟨s.property, hbytes⟩, h⟩

theorem decodeString_accepts
    {next : ByteString → List UInt8 → ConnectReceiver × Option ReceiveException} :
    c.decoding (BinaryDecoder.decodeString bytes) next = (after, none) ↔
      ∃ s : MQTTString, ∃ rest,
        bytes = Libnioev.encodeString s.val ++ rest ∧ next s.val rest = (after, none) :=
  decodingString_accepts (LawfulBinaryDecoder.decodeString_eq_some bytes)

theorem decodeBytesWithPrefixLength_accepts
    {next : List UInt8 → List UInt8 → ConnectReceiver × Option ReceiveException} :
    c.decoding (BinaryDecoder.decodeBytesWithPrefixLength bytes) next = (after, none) ↔
      ∃ s : MQTTString, ∃ rest,
        bytes = Libnioev.encodeString s.val ++ rest ∧ next s.val rest = (after, none) :=
  decodingString_accepts (LawfulBinaryDecoder.decodeBytesWithPrefixLength_eq_some bytes)

/-- A string that is there moves what follows behind it. -/
theorem skipString_accepts {field : Option MQTTString} {flag : UInt8}
    (hflag : flag ≠ 0 ↔ field.isSome = true) {n : Nat} {P : Prop}
    {next : List UInt8 → ConnectReceiver × Option ReceiveException}
    (hnext : ∀ rest, next rest = (after, none) ↔ ConnectContents.StringsFollow n rest ∧ P) :
    c.skipString flag bytes next = (after, none) ↔
      ConnectContents.StringsFollow (field.toList.length + n) bytes ∧ P := by
  unfold skipString
  cases field with
  | none =>
      rw [if_neg fun h => Bool.noConfusion (hflag.mp h), hnext]
      simp only [Option.toList_none, List.length_nil, Nat.zero_add]
  | some s =>
      rw [if_pos (hflag.mpr rfl), decodeString_accepts, Option.toList_some, List.length_singleton,
        Nat.add_comm]
      simp only [hnext, ConnectContents.StringsFollow]
      constructor
      · rintro ⟨s, rest, hbytes, hfollow, h⟩
        exact ⟨⟨s, rest, hbytes, hfollow⟩, h⟩
      · rintro ⟨⟨s, rest, hbytes, hfollow⟩, h⟩
        exact ⟨s, rest, hbytes, hfollow, h⟩

variable {p : ConnectContents} {clientId : ByteString} {cleanSession : CleanSession}

theorem handleCredentials_accepts :
    c.handleCredentials p.connectFlags clientId cleanSession bytes = (after, none) ↔
      ConnectContents.StringsFollow p.credentials bytes ∧
        after = c.requestLogin clientId cleanSession := by
  obtain ⟨-, -, husername, hpassword, -⟩ := p.bits_connectFlags
  refine skipString_accepts husername fun _ => skipString_accepts (n := 0) hpassword fun _ => ?_
  rw [Prod.mk.injEq, and_iff_left rfl, eq_comm]
  exact (and_iff_right trivial).symm

omit [Libnioev] [LawfulBinaryDecoder] in
theorem handleWill_of_none (hwill : p.will = none) :
    c.handleWill p.connectFlags clientId cleanSession bytes =
      c.handleCredentials p.connectFlags clientId cleanSession bytes := by
  obtain ⟨-, -, -, -, hflag⟩ := p.bits_connectFlags
  refine if_neg fun h => ?_
  have hsome := hflag.mp h
  rw [hwill] at hsome
  cases hsome

theorem handleWill_accepts {will : ConnectWill} (hwill : p.will = some will) :
    c.handleWill p.connectFlags clientId cleanSession bytes = (after, none) ↔
      ∃ topic message : MQTTString, ∃ rest,
        bytes = Libnioev.encodeString topic.val ++ (Libnioev.encodeString message.val ++ rest) ∧
        topic.val ≠ [] ∧ ConnectContents.StringsFollow p.credentials rest ∧
        after = (c.setWill topic.val message.val will.qos will.retain).requestLogin clientId
          cleanSession := by
  obtain ⟨-, -, -, -, hflag⟩ := p.bits_connectFlags
  obtain ⟨hqos, hvalid, hretain⟩ := ConnectContents.willBits_connectFlags hwill
  rw [hwill] at hflag
  unfold handleWill
  rw [if_pos (hflag.mpr rfl), decodeString_accepts]
  constructor
  · rintro ⟨topic, rest, rfl, h⟩
    by_cases htopic : topic.val = []
    · rw [if_pos htopic] at h
      exact absurd h (violation_ne _)
    · rw [if_neg htopic, decodeBytesWithPrefixLength_accepts] at h
      obtain ⟨message, rest, rfl, h⟩ := h
      simp only [hqos, hretain, if_neg hvalid, QoS.ofUInt8_toUInt8] at h
      obtain ⟨hfollow, hafter⟩ := handleCredentials_accepts.mp h
      exact ⟨topic, message, rest, rfl, htopic, hfollow, hafter⟩
  · rintro ⟨topic, message, rest, rfl, htopic, hfollow, hafter⟩
    refine ⟨topic, _, rfl, ?_⟩
    rw [if_neg htopic, decodeBytesWithPrefixLength_accepts]
    refine ⟨message, rest, rfl, ?_⟩
    simp only [hqos, hretain, if_neg hvalid, QoS.ofUInt8_toUInt8]
    exact handleCredentials_accepts.mpr ⟨hfollow, hafter⟩

theorem handlePayload_accepts {clientId : MQTTString} :
    c.handlePayload p.connectFlags (Libnioev.encodeString clientId.val ++ bytes) = (after, none) ↔
      (clientId.val = [] → p.cleanSession = .yes) ∧
        c.handleWill p.connectFlags clientId.val p.cleanSession bytes = (after, none) := by
  obtain ⟨-, hclean, -⟩ := p.bits_connectFlags
  unfold handlePayload
  rw [decodeString_append clientId.property, decoding]
  simp only [hclean]
  by_cases hid : clientId.val = [] ∧ p.cleanSession = .no
  · rw [if_pos hid]
    refine iff_of_false (violation_ne _) fun ⟨h, _⟩ => ?_
    rw [h hid.1] at hid
    cases hid.2
  · rw [if_neg hid]
    refine (and_iff_right fun hempty => ?_).symm
    cases hsession : p.cleanSession with
    | no => exact absurd ⟨hempty, hsession⟩ hid
    | yes => rfl

end ConnectReceiver

namespace ConnectContents

variable [Libnioev] [BinaryDecoder] [LawfulBinaryDecoder] {p : ConnectContents}
  {c after : ConnectReceiver}

omit [BinaryDecoder] [LawfulBinaryDecoder] in
theorem StringsFollow.optionalString {n : Nat} {bytes : List UInt8} (h : StringsFollow n bytes)
    (field : Option MQTTString) :
    StringsFollow (field.toList.length + n) (optionalString field ++ bytes) := by
  cases field with
  | none =>
      rw [Option.toList_none, List.length_nil, Nat.zero_add]
      exact h
  | some s =>
      rw [Option.toList_some, List.length_singleton, Nat.add_comm]
      exact ⟨s, bytes, rfl, h⟩

omit [BinaryDecoder] [LawfulBinaryDecoder] in
theorem stringsFollow_credentialBytes (p : ConnectContents) :
    StringsFollow p.credentials p.credentialBytes := by
  have hempty : StringsFollow 0 [] := trivial
  have hpassword := hempty.optionalString p.password
  rw [List.append_nil] at hpassword
  exact hpassword.optionalString p.username

/-- What is recorded before the payload is read. -/
def recordHeader (p : ConnectContents) (c : ConnectReceiver) : ConnectReceiver :=
  { c with
    conn :=
      { c.conn with
        mMQTTVersion := p.version
        mKeepAliveIntervalSeconds := p.keepAlive }
    mConnectProperties := if p.version = .v5 then p.connectProperties else c.mConnectProperties }

/-- Up to the payload every packet is read as it is written. -/
theorem handleConnect_encode
    (hproperties : p.version = .v5 → Libnioev.ReadsBack p.connectProperties) :
    c.handleConnect p.encode = (p.recordHeader c).handlePayload p.connectFlags
      (Libnioev.encodeString p.clientId.val ++ (p.willBytes ++ p.credentialBytes)) := by
  obtain ⟨hsupported, hlevel⟩ := protocolLevel_cases p.version
  obtain ⟨hreserved, -⟩ := p.bits_connectFlags
  have hname : ∀ rest : List UInt8, ¬ (ConnectReceiver.protocolName ++ rest).length < 6 := by
    intro rest h
    rw [List.length_append] at h
    exact absurd (Nat.le_add_right 6 rest.length) (Nat.not_le.mpr h)
  unfold ConnectReceiver.handleConnect encode
  rw [if_neg (hname _), if_neg (fun h => h rfl)]
  have hdrop : ∀ rest : List UInt8, (ConnectReceiver.protocolName ++ rest).drop 6 = rest :=
    fun rest => rfl
  rw [hdrop, LawfulBinaryDecoder.decodeByte_cons]
  simp only [ConnectReceiver.decoding, if_neg hsupported, hlevel]
  unfold ConnectReceiver.handleVersion
  rw [LawfulBinaryDecoder.decodeByte_cons]
  simp only [ConnectReceiver.decoding, LawfulBinaryDecoder.decode2Bytes_append]
  rw [if_neg (fun h => h hreserved)]
  unfold propertyBytes recordHeader
  by_cases hversion : p.version = .v5
  · simp only [if_pos hversion, hproperties hversion _]
  · simp only [if_neg hversion, List.nil_append]

/-! ## When the packet is recorded -/

omit [Libnioev] [BinaryDecoder] [LawfulBinaryDecoder] in
theorem recorded_of_header {after : ConnectReceiver} (mWill : Option MQTTPacket)
    (hafter : after = ConnectReceiver.requestLogin
      { p.recordHeader c with conn := { (p.recordHeader c).conn with mWill := mWill } }
      p.clientId.val p.cleanSession) :
    p.Recorded c after ↔ mWill.map MQTTPacket.willFields = p.will.map ConnectWill.fields := by
  subst hafter
  constructor
  · exact fun h => h.will
  · intro hwill
    exact
      { version := rfl
        keepAlive := rfl
        connectProperties := fun hversion => if_pos hversion
        will := hwill
        requests := rfl
        connecting := rfl }

omit [BinaryDecoder] [LawfulBinaryDecoder] in
theorem willInPlace_iff {will : ConnectWill} :
    p.WillInPlace will ↔ ∃ rest,
      p.propertyBytes will.properties ++ (willFields will ++ p.credentialBytes) =
        willFields will ++ rest ∧ StringsFollow p.credentials rest := by
  unfold WillInPlace propertyBytes
  cases p.version with
  | v4 => exact iff_of_true (.inl rfl) ⟨_, rfl, p.stringsFollow_credentialBytes⟩
  | v5 =>
      -- The bytes of the condition are those of the packet.
      rw [if_pos rfl]
      exact or_iff_right MQTTVersion.noConfusion

/-- Without a will, everything that is written is read. -/
theorem recorded_none (hproperties : p.version = .v5 → Libnioev.ReadsBack p.connectProperties)
    (hwill : p.will = none) :
    (∃ after, c.handleConnect p.encode = (after, none) ∧ p.Recorded c after) ↔
      (p.clientId.val = [] → p.cleanSession = .yes) ∧ c.conn.mWill = none := by
  have hbytes : p.willBytes = [] := by
    rw [willBytes, hwill]
  have hrecorded : p.Recorded c ((p.recordHeader c).requestLogin p.clientId.val p.cleanSession) ↔
      c.conn.mWill = none := by
    refine (recorded_of_header c.conn.mWill rfl).trans ?_
    rw [hwill]
    exact Option.map_eq_none_iff
  simp only [handleConnect_encode hproperties, ConnectReceiver.handlePayload_accepts,
    ConnectReceiver.handleWill_of_none hwill, ConnectReceiver.handleCredentials_accepts, hbytes,
    List.nil_append]
  constructor
  · rintro ⟨after, ⟨hid, -, rfl⟩, hafter⟩
    exact ⟨hid, hrecorded.mp hafter⟩
  · rintro ⟨hid, hnone⟩
    exact ⟨_, ⟨hid, p.stringsFollow_credentialBytes, rfl⟩, hrecorded.mpr hnone⟩

/-- A will is recorded where it is found. -/
theorem recorded_some (hproperties : p.version = .v5 → Libnioev.ReadsBack p.connectProperties)
    {will : ConnectWill} (hwill : p.will = some will) :
    (∃ after, c.handleConnect p.encode = (after, none) ∧ p.Recorded c after) ↔
      (p.clientId.val = [] → p.cleanSession = .yes) ∧ p.WillInPlace will := by
  have hbytes : p.willBytes ++ p.credentialBytes =
      p.propertyBytes will.properties ++ (willFields will ++ p.credentialBytes) := by
    rw [willBytes, hwill]
    exact List.append_assoc _ _ _
  have hrecorded : ∀ topic message : MQTTString, p.Recorded c
      (((p.recordHeader c).setWill topic.val message.val will.qos will.retain).requestLogin
        p.clientId.val p.cleanSession) ↔ topic = will.topic ∧ message = will.message := by
    intro topic message
    refine (recorded_of_header (some _) rfl).trans ?_
    rw [hwill]
    simp only [Option.map_some, Option.some.injEq, MQTTPacket.willFields, ConnectWill.fields,
      Prod.mk.injEq, and_true, Subtype.ext_iff]
  rw [willInPlace_iff, ← hbytes]
  simp only [handleConnect_encode hproperties, ConnectReceiver.handlePayload_accepts,
    ConnectReceiver.handleWill_accepts hwill, willFields, List.append_assoc]
  constructor
  · rintro ⟨after, ⟨hid, topic, message, rest, hread, -, hfollow, rfl⟩, hafter⟩
    obtain ⟨rfl, rfl⟩ := (hrecorded topic message).mp hafter
    exact ⟨hid, rest, hread, hfollow⟩
  · rintro ⟨hid, rest, hread, hfollow⟩
    exact ⟨_, ⟨hid, will.topic, will.message, rest, hread, will.topic_ne, hfollow, rfl⟩,
      (hrecorded _ _).mpr ⟨rfl, rfl⟩⟩

/-! ## The broker's step -/

/-- A will as the broker keeps it. -/
def willMsg (will : ConnectWill) : MQTTPacket where
  topic := will.topic.val
  payload := will.message.val
  qos := will.qos
  retain := will.retain

omit [Libnioev] [BinaryDecoder] [LawfulBinaryDecoder] in
theorem eq_willMsg {will : ConnectWill} {msg : MQTTPacket} (hfields : msg.willFields = will.fields)
    (hproperties : msg.properties = []) : msg = willMsg will := by
  obtain ⟨topic, payload, qos, retain, properties⟩ := msg
  simp only [MQTTPacket.willFields, ConnectWill.fields, Prod.mk.injEq] at hfields
  obtain ⟨rfl, rfl, rfl, rfl⟩ := hfields
  subst hproperties
  rfl

/-- What a recorded packet leaves of the connection. -/
theorem conn_of_recorded
    (hproperties : p.version = .v5 → Libnioev.ReadsBack p.connectProperties)
    (haccepted : c.handleConnect p.encode = (after, none)) (hrecorded : p.Recorded c after) :
    after.conn =
      { c.conn with
        mMQTTVersion := p.version
        mKeepAliveIntervalSeconds := p.keepAlive
        mWill := p.will.map willMsg
        mState := .connecting } := by
  have hwill := hrecorded.will
  rw [handleConnect_encode hproperties, ConnectReceiver.handlePayload_accepts] at haccepted
  cases hcases : p.will with
  | none =>
      rw [ConnectReceiver.handleWill_of_none hcases, ConnectReceiver.handleCredentials_accepts]
        at haccepted
      obtain ⟨-, -, rfl⟩ := haccepted
      rw [hcases] at hwill
      have hnone : c.conn.mWill = none := Option.map_eq_none_iff.mp hwill
      rw [Option.map_none, ← hnone]
      rfl
  | some will =>
      rw [ConnectReceiver.handleWill_accepts hcases] at haccepted
      obtain ⟨-, topic, message, rest, -, -, -, rfl⟩ := haccepted
      rw [hcases] at hwill
      rw [Option.map_some, ← eq_willMsg (Option.some.inj hwill) rfl]
      rfl

/-- A packet as the broker takes it. -/
def connectPacket (p : ConnectContents) (hid : p.clientId.val = [] → p.cleanSession = .yes) :
    ConnectPacket where
  version := p.version
  keepAlive := p.keepAlive
  clientId := p.clientId.val
  cleanSession := p.cleanSession
  will := p.will.map willMsg
  clean_of_empty := hid

/-- The broker's step for the packet leaves the connection and the thread's requests as the
receiver does. -/
def TakenByBroker (p : ConnectContents) (c after : ConnectReceiver) : Prop :=
  ∃ hid : p.clientId.val = [] → p.cleanSession = .yes,
    ∀ {τ : Type} (s : ApplicationState τ), s.connections c.client = c.conn →
      (s.handleConnect c.client (p.connectPacket hid)).connections c.client = after.conn ∧
        (s.handleConnect c.client (p.connectPacket hid)).work (.receiver c.client) =
          after.requests.map .request

theorem takenByBroker_of_recorded
    (hproperties : p.version = .v5 → Libnioev.ReadsBack p.connectProperties)
    (haccepted : c.handleConnect p.encode = (after, none)) (hrecorded : p.Recorded c after)
    (hrequests : c.requests = []) (hid : p.clientId.val = [] → p.cleanSession = .yes) :
    p.TakenByBroker c after := by
  refine ⟨hid, fun s hconn => ?_⟩
  rw [conn_of_recorded hproperties haccepted hrecorded, hrecorded.requests, hrequests, ← hconn]
  exact ⟨Function.update_self _ _ _, Function.update_self _ _ _⟩

/-- A new connection records a `CONNECT` as it is if and only if it reads it as it is
written; recording it is then the broker's step for it. -/
theorem recorded_iff_readAsWritten
    (hproperties : p.version = .v5 → Libnioev.ReadsBack p.connectProperties)
    {recvData : PacketReceiveData} (htype : recvData.messageType = .connect)
    (hbytes : recvData.currentReceiveBuffer = p.encode) (c : ConnectReceiver) :
    ((∃ after, ConnectReceiver.handlePacketReceived recvData c = (after, none) ∧
        p.Recorded c after) ↔
      p.ReadAsWritten c) ∧
      ∀ after, ConnectReceiver.handlePacketReceived recvData c = (after, none) →
        p.Recorded c after → c.requests = [] → p.TakenByBroker c after := by
  have hhandled : ConnectReceiver.handlePacketReceived recvData c = c.handleConnect p.encode := by
    rw [← hbytes]
    exact if_pos htype
  rw [hhandled]
  have hiff : (∃ after, c.handleConnect p.encode = (after, none) ∧ p.Recorded c after) ↔
      p.ReadAsWritten c := by
    unfold ReadAsWritten
    cases hwill : p.will with
    | none => exact recorded_none hproperties hwill
    | some will => exact recorded_some hproperties hwill
  refine ⟨hiff, fun after haccepted hrecorded hrequests => ?_⟩
  have hread : p.ReadAsWritten c := hiff.mp ⟨after, haccepted, hrecorded⟩
  exact takenByBroker_of_recorded hproperties haccepted hrecorded hrequests hread.1

end ConnectContents

/-- A packet with all fields of version 4. -/
def fullConnect : ConnectContents where
  version := .v4
  keepAlive := 60
  cleanSession := .no
  clientId := ⟨[0x61], by decide⟩
  will := some
    { topic := ⟨[0x74], by decide⟩
      message := ⟨[0x68, 0x69], by decide⟩
      qos := .qos1
      retain := .yes
      topic_ne := by decide }
  username := some ⟨[0x75], by decide⟩
  password := some ⟨[0x70], by decide⟩
  clean_of_empty := fun _ => by rintro ⟨⟩

/-- Version 5, without a client id, and with a clean session. -/
def cleanConnect : ConnectContents where
  version := .v5
  keepAlive := 60
  cleanSession := .yes
  clientId := ⟨[], by decide⟩
  clean_of_empty := by rintro ⟨⟩

theorem recorded_fullConnect :
    (∃ after, @ConnectReceiver.handlePacketReceived .standard .standard
        { messageType := .connect
          currentReceiveBuffer :=
            [0x00, 0x04, 0x4d, 0x51, 0x54, 0x54, 0x04, 0xec, 0x00, 0x3c, 0x00, 0x01, 0x61,
              0x00, 0x01, 0x74, 0x00, 0x02, 0x68, 0x69, 0x00, 0x01, 0x75, 0x00, 0x01, 0x70] }
        { client := 0 } = (after, none) ∧
      fullConnect.Recorded { client := 0 } after) ∧
    ∃ after, @ConnectReceiver.handlePacketReceived .standard .standard
        { messageType := .connect
          currentReceiveBuffer :=
            [0x00, 0x04, 0x4d, 0x51, 0x54, 0x54, 0x05, 0x02, 0x00, 0x3c, 0x00, 0x00, 0x00] }
        { client := 1 } = (after, none) ∧
      cleanConnect.Recorded { client := 1 } after := by
  have hiff := @ConnectContents.recorded_iff_readAsWritten .standard .standard
    BinaryDecoder.standard_lawful
  constructor
  · exact (hiff (p := fullConnect) (by rintro ⟨⟩) rfl (by decide +kernel) { client := 0 }).1.mpr
      ⟨(by rintro ⟨⟩), .inl rfl⟩
  · exact (hiff (p := cleanConnect) (fun _ _ => rfl) rfl (by decide +kernel) { client := 1 }).1.mpr
      ⟨fun _ => rfl, rfl⟩

/-- Version 5, with a will that has no properties. -/
def willConnect : ConnectContents :=
  { fullConnect with version := .v5, clean_of_empty := by rintro ⟨⟩ }

/-- Version 5, without a client id, and the session is to be kept. -/
def namelessConnect : ConnectContents where
  version := .v5
  keepAlive := 60
  cleanSession := .no
  clientId := ⟨[], by decide⟩
  clean_of_empty := by rintro ⟨⟩

/-- The length of the will's properties is taken for a part of the topic's length, which is
then zero; a client without an id is turned away as in version 4. -/
theorem not_recorded_willConnect :
    (¬ ∃ after, @ConnectReceiver.handlePacketReceived .standard .standard
        { messageType := .connect
          currentReceiveBuffer := @ConnectContents.encode .standard willConnect }
        { client := 0 } = (after, none) ∧
      willConnect.Recorded { client := 0 } after) ∧
    ¬ ∃ after, @ConnectReceiver.handlePacketReceived .standard .standard
        { messageType := .connect
          currentReceiveBuffer := @ConnectContents.encode .standard namelessConnect }
        { client := 1 } = (after, none) ∧
      namelessConnect.Recorded { client := 1 } after := by
  have hwill : (@ConnectReceiver.handlePacketReceived .standard .standard
      { messageType := .connect
        currentReceiveBuffer := @ConnectContents.encode .standard willConnect }
      { client := 0 }).2 ≠ none := by decide +kernel
  have hnameless : (@ConnectReceiver.handlePacketReceived .standard .standard
      { messageType := .connect
        currentReceiveBuffer := @ConnectContents.encode .standard namelessConnect }
      { client := 1 }).2 ≠ none := by decide +kernel
  constructor
  · rintro ⟨after, haccepted, -⟩
    exact hwill (congrArg Prod.snd haccepted)
  · rintro ⟨after, haccepted, -⟩
    exact hnameless (congrArg Prod.snd haccepted)

end NioevMqtt
