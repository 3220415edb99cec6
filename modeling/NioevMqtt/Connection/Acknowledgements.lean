-- SUMMARY: Acknowledgements that the broker sends, read by its own branches: in version 5 those without a reason code are not read back.
import NioevMqtt.Connection.Replies

/-!
# Acknowledgements read back

The four acknowledgements are written in one place and read in another. In version 5 the
branches that read them take a reason code and properties; a `PUBCOMP` or `PUBREL` that has
nothing to complain about is sent without.
-/

namespace NioevMqtt

namespace MQTTMessageType

/-- `PUBACK`, `PUBREC`, `PUBREL` and `PUBCOMP`. -/
def acknowledgements : List MQTTMessageType := [.puback, .pubrec, .pubrel, .pubcomp]

/-- The low bits of the first byte of an acknowledgement. -/
def acknowledgementFlags (type : MQTTMessageType) : UInt8 := if type = .pubrel then 0b10 else 0

end MQTTMessageType

def EncodedPacket.IsAcknowledgement (p : EncodedPacket) : Prop :=
  p.messageType ∈ MQTTMessageType.acknowledgements

/-- The receive loop hands on a packet as it was sent. -/
structure PacketReceiveData.Receives (recvData : PacketReceiveData) (p : EncodedPacket) : Prop where
  received_eq : recvData.received = (p.mPrelude.firstByte, p.body)
  messageType_eq : recvData.messageType = p.messageType

namespace PacketReceiver

section

variable [Libnioev] [BinaryDecoder] {c : PacketReceiver} {recvData : PacketReceiveData}
  {version : MQTTVersion} {id : UInt16} {packet : EncodedPacket}

omit [BinaryDecoder] in
/-- The branch of an acknowledgement, when it has read the identifier. -/
def confirm (c : PacketReceiver) (type : MQTTMessageType) (id : UInt16) :
    PacketReceiver × Option ReceiveException :=
  match type with
  | .puback => c.handlePubAck id
  | .pubrec => c.handlePubRec id
  | .pubrel => c.handlePubRel id
  | .pubcomp => c.handlePubComp id
  | _ => (c, none)

/-- Every connection of the version that receives the packet takes it for an
acknowledgement of the identifier, and does not throw as long as it has its session. -/
def ReadBack (packet : EncodedPacket) (version : MQTTVersion) (id : UInt16) : Prop :=
  ∀ (recvData : PacketReceiveData) (receiver : PacketReceiver), recvData.Receives packet →
    receiver.version = version →
      handlePacketReceived .connected recvData receiver = receiver.confirm packet.messageType id ∧
        (receiver.conn.mPersistentClientState ≠ none →
          (handlePacketReceived .connected recvData receiver).2 = none)

/-- A `PUBREL` or `PUBREC` for an identifier the session knows. -/
def ConfirmsKnown (c : PacketReceiver) (state : ConnectionState) (recvData : PacketReceiveData) :
    Prop :=
  state = .connected ∧ ∃ session id,
    (c.Acknowledges recvData .pubrel session id ∧ recvData.firstByte = 0x62 ∧
        id ∈ (c.sessions session).mQoS2receivingPacketIds) ∨
      (c.Acknowledges recvData .pubrec session id ∧
        id ∈ (c.sessions session).mHighQoSSendingPackets)

/-! ## Reading -/

omit [BinaryDecoder] in
theorem confirm_of_session (type : MQTTMessageType)
    (hsession : c.conn.mPersistentClientState ≠ none) (id : UInt16) :
    (c.confirm type id).2 = none := by
  obtain ⟨session, hsession⟩ := Option.ne_none_iff_exists'.mp hsession
  have hdone : ∀ next, (∀ session, (next session).2 = none) → (c.withSession next).2 = none := by
    intro next hnext
    unfold withSession
    rw [hsession]
    exact hnext session
  unfold confirm
  split
  · exact hdone _ fun _ => rfl
  · exact hdone _ fun _ => rfl
  · exact hdone _ fun _ => rfl
  · exact hdone _ fun _ => rfl
  · rfl

/-- What is decoded is confirmed. Only a `PUBREL` has its first byte looked at. -/
theorem handleConnected_of_decode (hack : packet.IsAcknowledgement)
    (hfirst : packet.messageType = .pubrel → packet.mPrelude.firstByte = 0x62)
    (hreceives : recvData.Receives packet) :
    handlePacketReceived .connected recvData c =
      c.acknowledged packet.body (c.confirm packet.messageType) := by
  obtain ⟨hfirstByte, hbody⟩ := Prod.mk.inj hreceives.received_eq
  have htype := hreceives.messageType_eq
  show c.handleConnected recvData = _
  unfold handleConnected
  rw [htype, hfirstByte, hbody]
  unfold EncodedPacket.IsAcknowledgement MQTTMessageType.acknowledgements at hack
  simp only [List.mem_cons, List.not_mem_nil, or_false] at hack
  rcases hack with hack | hack | hack | hack
  · rw [hack]
    rfl
  · rw [hack]
    rfl
  · simp only [hack, hfirst hack]
    exact if_neg (by decide)
  · rw [hack]
    rfl

theorem readBack_of_decode (hack : packet.IsAcknowledgement)
    (hfirst : packet.messageType = .pubrel → packet.mPrelude.firstByte = 0x62)
    (hdecode : decodeAcknowledgement version packet.body = some id) :
    ReadBack packet version id := by
  intro recvData receiver hreceives hversion
  have hhandled := handleConnected_of_decode (c := receiver) hack hfirst hreceives
  unfold acknowledged at hhandled
  rw [hversion, hdecode] at hhandled
  exact ⟨hhandled, fun hsession => by rw [hhandled]; exact confirm_of_session _ hsession id⟩

/-- What is not decoded makes every connection of the version throw. -/
theorem not_readBack_of_decode (hack : packet.IsAcknowledgement)
    (hfirst : packet.messageType = .pubrel → packet.mPrelude.firstByte = 0x62)
    (hdecode : decodeAcknowledgement version packet.body = none) : ¬ ReadBack packet version id := by
  intro h
  let receiver : PacketReceiver :=
    { client := 0, conn := { mMQTTVersion := version, mPersistentClientState := some 0 } }
  let recvData : PacketReceiveData :=
    { currentReceiveBuffer := packet.body, messageType := packet.messageType
      firstByte := packet.mPrelude.firstByte }
  have hreceives : recvData.Receives packet := ⟨rfl, rfl⟩
  have hthrows := handleConnected_of_decode (c := receiver) hack hfirst hreceives
  have hversion : receiver.version = version := rfl
  unfold acknowledged at hthrows
  rw [hversion, hdecode] at hthrows
  have hnone := (h recvData receiver hreceives rfl).2 (Option.some_ne_none 0)
  rw [hthrows] at hnone
  cases hnone

section

variable [LawfulBinaryDecoder]

theorem decode_v4 (id : UInt16) (rest : List UInt8) :
    decodeAcknowledgement .v4 (bigEndianBytes id ++ rest) = some id := by
  unfold decodeAcknowledgement
  rw [LawfulBinaryDecoder.decode2Bytes_append]
  rfl

theorem decode_reason (hproperties : Libnioev.ReadsBack []) (version : MQTTVersion) (id : UInt16)
    (reason : UInt8) :
    decodeAcknowledgement version (bigEndianBytes id ++
      reason :: Libnioev.encodePropertyList []) = some id := by
  have hread := hproperties []
  rw [List.append_nil] at hread
  cases version with
  | v4 => exact decode_v4 id _
  | v5 =>
      unfold decodeAcknowledgement skipReason skipProperties
      rw [LawfulBinaryDecoder.decode2Bytes_append]
      simp only [LawfulBinaryDecoder.decodeByte_cons, if_true, hread]
      rfl

/-- In version 5 the identifier alone is too short. -/
theorem decode_v5 [StrictBinaryDecoder] (id : UInt16) :
    decodeAcknowledgement .v5 (bigEndianBytes id) = none := by
  have hread := LawfulBinaryDecoder.decode2Bytes_append id []
  rw [List.append_nil] at hread
  unfold decodeAcknowledgement skipReason
  rw [hread]
  simp only [if_true, StrictBinaryDecoder.decodeByte_nil, Option.map_none]

/-- An acknowledgement is decoded, if it does not leave out the reason in version 5. -/
theorem decode_acknowledgement (hproperties : Libnioev.ReadsBack []) (type : MQTTMessageType)
    (flags : UInt8) {reason : Option UInt8} (hreason : version = .v5 → reason ≠ none) (id : UInt16) :
    decodeAcknowledgement version
      (ApplicationState.acknowledgement type flags version id reason).body = some id := by
  cases version with
  | v4 =>
      rw [EncodedPacket.body_acknowledgement_v4]
      have hread := decode_v4 id []
      rwa [List.append_nil] at hread
  | v5 =>
      obtain ⟨reason, rfl⟩ := Option.ne_none_iff_exists'.mp (hreason rfl)
      exact (congrArg _ (EncodedPacket.body_fromData _ _)).trans
        (decode_reason hproperties .v5 id reason)

end

/-! ## What is confirmed -/

omit [Libnioev] [BinaryDecoder] in
theorem of_reason_eq_none {known : Prop} [Decidable known] (h : reason known = none) : known := by
  unfold reason at h
  by_contra hunknown
  rw [if_neg hunknown] at h
  cases h

theorem acknowledged_of_decode {type : MQTTMessageType} {session : SessionId}
    (h : c.Acknowledges recvData type session id)
    (next : UInt16 → PacketReceiver × Option ReceiveException) :
    c.acknowledged recvData.currentReceiveBuffer next = next id := by
  unfold acknowledged
  rw [h.decode_eq]

theorem handleConnected_pubRel {session : SessionId}
    (h : c.Acknowledges recvData .pubrel session id) (hfirst : recvData.firstByte = 0x62) :
    c.handleConnected recvData = ((c.updateSession session (·.pubRel id)).sendData
      (ApplicationState.acknowledgement .pubcomp 0 c.version id
        (reason (id ∈ (c.sessions session).mQoS2receivingPacketIds))), none) := by
  unfold handleConnected
  rw [h.messageType_eq]
  simp only [if_neg (not_not.mpr hfirst), acknowledged_of_decode h]
  unfold handlePubRel withSession
  rw [h.session_eq]
  rfl

theorem handleConnected_pubRec {session : SessionId}
    (h : c.Acknowledges recvData .pubrec session id) :
    c.handleConnected recvData = ((c.updateSession session (·.pubRec id)).sendData
      (ApplicationState.acknowledgement .pubrel 0b10 c.version id
        (reason (id ∈ (c.sessions session).mHighQoSSendingPackets))), none) := by
  unfold handleConnected
  rw [h.messageType_eq]
  simp only [acknowledged_of_decode h]
  unfold handlePubRec withSession
  rw [h.session_eq]
  rfl

/-- What is known is confirmed without a reason. -/
theorem replies_confirmsKnown {state : ConnectionState} (h : c.ConfirmsKnown state recvData) :
    ∃ type ∈ MQTTMessageType.acknowledgements, ∃ id, c.replies state recvData =
      [ApplicationState.acknowledgement type type.acknowledgementFlags c.version id none] := by
  obtain ⟨rfl, session, id, ⟨h, hfirst, hknown⟩ | ⟨h, hknown⟩⟩ := h
  · have hhandled := handleConnected_pubRel h hfirst
    unfold reason at hhandled
    rw [if_pos hknown] at hhandled
    exact ⟨.pubcomp, by decide, id, replies_eq .connected (congrArg (·.1.conn.sent) hhandled)⟩
  · have hhandled := handleConnected_pubRec h
    unfold reason at hhandled
    rw [if_pos hknown] at hhandled
    exact ⟨.pubrel, by decide, id, replies_eq .connected (congrArg (·.1.conn.sent) hhandled)⟩

omit [BinaryDecoder] in
/-- The first byte of an acknowledgement. -/
theorem firstByte_acknowledgement {type : MQTTMessageType}
    (h : type ∈ MQTTMessageType.acknowledgements) (version : MQTTVersion) (id : UInt16)
    (reason : Option UInt8) :
    let packet := ApplicationState.acknowledgement type type.acknowledgementFlags version id reason
    packet.IsAcknowledgement ∧
      (packet.messageType = .pubrel → packet.mPrelude.firstByte = 0x62) := by
  intro packet
  have hbytes : ∀ type ∈ MQTTMessageType.acknowledgements,
      MQTTMessageType.ofUInt8 ((type.toUInt8 <<< 4 ||| type.acknowledgementFlags) >>> 4) = type ∧
        (type = .pubrel → type.toUInt8 <<< 4 ||| type.acknowledgementFlags = 0x62) := by
    decide
  obtain ⟨htype, hfirst⟩ := hbytes type h
  have hsame : packet.messageType = type := htype
  refine ⟨?_, fun hpubrel => hfirst (hsame.symm.trans hpubrel)⟩
  unfold EncodedPacket.IsAcknowledgement
  rw [hsame]
  exact h

section

variable [LawfulBinaryDecoder]

theorem readBack_acknowledgement (hproperties : Libnioev.ReadsBack []) {type : MQTTMessageType}
    (h : type ∈ MQTTMessageType.acknowledgements) {reason : Option UInt8}
    (hreason : version = .v5 → reason ≠ none) (id : UInt16) :
    ReadBack (ApplicationState.acknowledgement type type.acknowledgementFlags version id reason)
      version id := by
  obtain ⟨hack, hfirst⟩ := firstByte_acknowledgement h version id reason
  exact readBack_of_decode hack hfirst (decode_acknowledgement hproperties type _ hreason id)

/-- Without a reason, no connection of version 5 takes it. -/
theorem not_readBack_acknowledgement [StrictBinaryDecoder] {type : MQTTMessageType}
    (h : type ∈ MQTTMessageType.acknowledgements) (id id' : UInt16) :
    ¬ ReadBack (ApplicationState.acknowledgement type type.acknowledgementFlags .v5 id none)
      .v5 id' := by
  obtain ⟨hack, hfirst⟩ := firstByte_acknowledgement h .v5 id none
  refine not_readBack_of_decode hack hfirst ?_
  exact (congrArg _ (EncodedPacket.body_fromData _ _)).trans
    ((congrArg _ (List.append_nil _)).trans (decode_v5 id))

end

variable [LawfulBinaryDecoder] [StrictBinaryDecoder]

/-- The replies that acknowledge something are read back, but for those that confirm in
version 5 what is known. -/
theorem readBack_replies_iff (hproperties : Libnioev.ReadsBack []) (c : PacketReceiver)
    (state : ConnectionState) (recvData : PacketReceiveData) :
    (∀ packet ∈ c.replies state recvData, packet.IsAcknowledgement →
        ∃ id, identifier recvData = some id ∧ ReadBack packet c.version id) ↔
      (c.version = .v5 → ¬ c.ConfirmsKnown state recvData) := by
  constructor
  · intro h hversion hknown
    obtain ⟨type, htype, id, hreplies⟩ := replies_confirmsKnown hknown
    rw [hreplies, hversion] at h
    have hack := (firstByte_acknowledgement htype .v5 id none).1
    obtain ⟨id', -, hread⟩ := h _ (List.mem_singleton_self _) hack
    exact not_readBack_acknowledgement htype id id' hread
  · intro hunknown
    have hcases := replies_cases c state recvData
    generalize c.replies state recvData = packets at hcases
    have hread : ∀ type ∈ MQTTMessageType.acknowledgements, ∀ {id} {reason : Option UInt8},
        identifier recvData = some id → (c.version = .v5 → reason ≠ none) → ∀ packet ∈
          [ApplicationState.acknowledgement type type.acknowledgementFlags c.version id reason],
          packet.IsAcknowledgement →
            ∃ id, identifier recvData = some id ∧ ReadBack packet c.version id := by
      intro type htype id reason hid hreason packet hmem _
      rw [List.mem_singleton.mp hmem]
      exact ⟨id, hid, readBack_acknowledgement hproperties htype hreason id⟩
    have hother : ∀ type ∉ MQTTMessageType.acknowledgements, ∀ {other : EncodedPacket},
        other.messageType = type → ∀ packet ∈ [other], packet.IsAcknowledgement →
          ∃ id, identifier recvData = some id ∧ ReadBack packet c.version id := by
      rintro type htype other rfl packet hmem hack
      exact absurd (List.mem_singleton.mp hmem ▸ hack) htype
    cases hcases with
    | nothing => exact fun _ hmem => absurd hmem List.not_mem_nil
    | puback h =>
        exact hread .puback (by decide) (identifier_of_publishesAs h) fun _ =>
          Option.some_ne_none 0
    | pubrec h =>
        exact hread .pubrec (by decide) (identifier_of_publishesAs h) fun _ =>
          Option.some_ne_none 0
    | @pubcomp session id h hfirst =>
        refine hread .pubcomp (by decide) (h.identifier_eq (by decide)) fun hversion hknown => ?_
        exact hunknown hversion ⟨rfl, session, id, .inl ⟨h, hfirst, of_reason_eq_none hknown⟩⟩
    | @pubrel session id h =>
        refine hread .pubrel (by decide) (h.identifier_eq (by decide)) fun hversion hknown => ?_
        exact hunknown hversion ⟨rfl, session, id, .inr ⟨h, of_reason_eq_none hknown⟩⟩
    | rejectVersion =>
        exact hother .connack (by decide) (EncodedPacket.messageType_fromData _ (by decide) _)
    | suback => exact hother .suback (by decide) (EncodedPacket.messageType_fromData _ (by decide) _)
    | unsuback =>
        exact hother .unsuback (by decide) (EncodedPacket.messageType_fromData _ (by decide) _)
    | pingresp => exact hother .pingresp (by decide) (by decide)

/-! ## Logins -/

omit [BinaryDecoder] [LawfulBinaryDecoder] [StrictBinaryDecoder] in
theorem pubrel_eq (version : MQTTVersion) (id : UInt16) :
    ApplicationState.pubrel id = ApplicationState.acknowledgement .pubrel
      (MQTTMessageType.acknowledgementFlags .pubrel) version id none := by
  unfold ApplicationState.pubrel ApplicationState.acknowledgement
  cases version with
  | v4 => exact congrArg _ (List.append_nil _).symm
  | v5 => exact congrArg _ (List.append_nil _).symm

variable {τ : Type} {s : ApplicationState τ} {login : Login}

/-- A login that resumes its session sends a `PUBREL` again. -/
def ReleasesAgain (s : ApplicationState τ) (login : Login) : Prop :=
  s.Resumes login ∧ ∃ id ∈ (s.sessions (s.sessionFor login)).mQos2pubrecReceived,
    id.toNat < (s.sessions (s.sessionFor login)).mQos2pubrecReceived.card

/-- What a login acknowledges is read back, but for what it releases in version 5. -/
theorem readBack_loginPackets_iff (hproperties : Libnioev.ReadsBack []) (h : s.StoresPublishes)
    (login : Login) :
    (∀ packet ∈ s.loginPackets login, packet.IsAcknowledgement →
        ∃ id ∈ (s.sessions (s.sessionFor login)).mQos2pubrecReceived,
          ReadBack packet (s.connections login.client).mMQTTVersion id) ↔
      ((s.connections login.client).mMQTTVersion = .v5 → ¬ ReleasesAgain s login) := by
  have hpubrel : .pubrel ∈ MQTTMessageType.acknowledgements := by decide
  have hconnack : ∀ sessionPresent, ¬ (ApplicationState.connack
      (s.connections login.client).mMQTTVersion sessionPresent).IsAcknowledgement := by
    intro sessionPresent
    have htype : (ApplicationState.connack (s.connections login.client).mMQTTVersion
        sessionPresent).messageType = .connack :=
      EncodedPacket.messageType_fromData .connack (by decide) _
    unfold EncodedPacket.IsAcknowledgement
    rw [htype]
    decide
  constructor
  · rintro hread hversion ⟨hresumes, id, hid, hlt⟩
    have hsent : ApplicationState.pubrel id ∈ s.loginPackets login := by
      rw [ApplicationState.loginPackets_of_resumes hresumes]
      exact List.mem_cons_of_mem _ (List.mem_append_right _
        (List.mem_map_of_mem (ApplicationState.mem_pubrelIdentifiers.mpr ⟨hid, hlt⟩)))
    rw [pubrel_eq .v5] at hsent
    obtain ⟨id', -, hback⟩ := hread _ hsent (firstByte_acknowledgement hpubrel .v5 id none).1
    exact not_readBack_acknowledgement hpubrel id id' (hversion ▸ hback)
  · intro hnone packet hpacket hack
    by_cases hresumes : s.Resumes login
    · rw [ApplicationState.loginPackets_of_resumes hresumes, List.mem_cons, List.mem_append,
        List.mem_map, List.mem_map] at hpacket
      rcases hpacket with rfl | ⟨stored, hstored, rfl⟩ | ⟨id, hid, rfl⟩
      · exact absurd hack (hconnack .yes)
      · have htype := (ApplicationState.isPublish_of_mem_orderedPackets h
          hstored).messageType_setDupFlag
        unfold EncodedPacket.IsAcknowledgement at hack
        rw [htype] at hack
        exact absurd hack (by decide)
      · obtain ⟨hmem, hlt⟩ := ApplicationState.mem_pubrelIdentifiers.mp hid
        refine ⟨id, hmem, ?_⟩
        rw [pubrel_eq (s.connections login.client).mMQTTVersion]
        exact readBack_acknowledgement hproperties hpubrel
          (fun hversion => absurd ⟨hresumes, id, hmem, hlt⟩ (hnone hversion)) id
    · rw [ApplicationState.loginPackets_of_clean hresumes, List.mem_singleton] at hpacket
      exact absurd (hpacket ▸ hack) (hconnack .no)

variable [SubscriptionTree τ]

/-- The acknowledgements of the handler, and those of the logins in every state of the
broker, are read back exactly where none confirms in version 5 what is known. -/
theorem readBack_iff (hproperties : Libnioev.ReadsBack [])
    {retained : AList fun _ : ByteString => RetainedMessage}
    {run : List (ApplicationState.Action × ApplicationState τ)}
    (hrun : Runs.IsRun (Runs.StepOf ApplicationState.stepOk) (.initial retained) run)
    (hs : Runs.last (.initial retained) run = s) :
    (∀ (c : PacketReceiver) (state : ConnectionState) (recvData : PacketReceiveData),
      (∀ packet ∈ c.replies state recvData, packet.IsAcknowledgement →
          ∃ id, identifier recvData = some id ∧ ReadBack packet c.version id) ↔
        (c.version = .v5 → ¬ c.ConfirmsKnown state recvData)) ∧
      ∀ action t login, s.stepOk action = some t → s.executedLogin action = some login →
        ∃ packets,
          (t.connections login.client).sent = (s.connections login.client).sent ++ packets ∧
          ((∀ packet ∈ packets, packet.IsAcknowledgement →
              ∃ id ∈ (s.sessions (s.sessionFor login)).mQos2pubrecReceived,
                ReadBack packet (s.connections login.client).mMQTTVersion id) ↔
            ((s.connections login.client).mMQTTVersion = .v5 → ¬ ReleasesAgain s login)) := by
  refine ⟨readBack_replies_iff hproperties, fun action t login hstep hlogin => ?_⟩
  obtain ⟨hsent, hstores⟩ := ApplicationState.sendsLogin_of_isRun hrun hs hstep hlogin
  exact ⟨_, hsent, readBack_loginPackets_iff hproperties hstores login⟩

end

/-- A `PUBACK` in version 5, and a login. -/
theorem readBack_puback :
    let c : PacketReceiver :=
      { client := 0, conn := { mMQTTVersion := .v5, mPersistentClientState := some 0 } }
    let recvData : PacketReceiveData :=
      { messageType := .publish, firstByte := 0x32
        currentReceiveBuffer := [0x00, 0x01, 0x74, 0x00, 0x07, 0x00, 0x68] }
    let run := Runs.runOf (@ApplicationState.stepOk SubscriptionList .standard _) (.initial ∅)
      (ApplicationState.Action.requestLogin 0 [0x61] .no ApplicationState.Action.kept_of_id)
    (@replies .standard .standard c .connected recvData).map (fun packet => packet.body) =
        [[0x00, 0x07, 0x00, 0x00]] ∧
      (∀ packet ∈ @replies .standard .standard c .connected recvData, packet.IsAcknowledgement →
        ∃ id, @identifier .standard recvData = some id ∧
          @ReadBack .standard .standard packet .v5 id) ∧
      ∀ t login, @ApplicationState.stepOk _ .standard _ (Runs.last (.initial ∅) run) (.execute []) =
          some t →
        (Runs.last (.initial ∅) run).executedLogin (.execute []) = some login →
        ∃ packets, (t.connections login.client).sent =
            ((Runs.last (.initial ∅) run).connections login.client).sent ++ packets ∧
          ((∀ packet ∈ packets, packet.IsAcknowledgement →
              ∃ id ∈ ((Runs.last (.initial ∅) run).sessions
                  ((Runs.last (.initial ∅) run).sessionFor login)).mQos2pubrecReceived,
                @ReadBack .standard .standard packet
                  ((Runs.last (.initial ∅) run).connections login.client).mMQTTVersion id) ↔
            (((Runs.last (.initial ∅) run).connections login.client).mMQTTVersion = .v5 →
              ¬ ReleasesAgain (Runs.last (.initial ∅) run) login)) := by
  intro c recvData run
  obtain ⟨hreplies, hlogins⟩ := @readBack_iff .standard .standard BinaryDecoder.standard_lawful
    BinaryDecoder.standard_strict SubscriptionList _ _ (fun _ => rfl) ∅ run
    (Runs.isRun_runOf _ _ _) rfl
  refine ⟨by decide +kernel, (hreplies c .connected recvData).mpr fun _ hknown => ?_,
    hlogins (.execute [])⟩
  obtain ⟨-, session, id, ⟨⟨htype, -, -⟩, -⟩ | ⟨⟨htype, -, -⟩, -⟩⟩ := hknown
  · cases htype
  · cases htype

/-- The `PUBCOMP` for a received identifier is not read back in version 5. -/
theorem not_readBack_pubcomp :
    let c : PacketReceiver :=
      { client := 0, conn := { mMQTTVersion := .v5, mPersistentClientState := some 0 }
        sessions := fun _ => { mQoS2receivingPacketIds := {7} } }
    let recvData : PacketReceiveData :=
      { messageType := .pubrel, firstByte := 0x62, currentReceiveBuffer := [0x00, 0x07, 0x00, 0x00] }
    (@replies .standard .standard c .connected recvData).map (fun packet => packet.body) =
        [[0x00, 0x07]] ∧
      ¬ ∀ packet ∈ @replies .standard .standard c .connected recvData, packet.IsAcknowledgement →
        ∃ id, @identifier .standard recvData = some id ∧
          @ReadBack .standard .standard packet .v5 id := by
  intro c recvData
  have hacknowledges : @Acknowledges .standard .standard c recvData .pubrel 0 7 :=
    @Acknowledges.mk .standard .standard c recvData .pubrel 0 7 rfl rfl (by decide)
  obtain ⟨type, htype, id, hreplies⟩ := @replies_confirmsKnown .standard .standard c recvData
    .connected ⟨rfl, 0, 7, .inl ⟨hacknowledges, rfl, by decide⟩⟩
  refine ⟨by decide +kernel, fun h => ?_⟩
  rw [hreplies] at h
  obtain ⟨id', -, hread⟩ := h _ (List.mem_singleton_self _)
    (@firstByte_acknowledgement .standard type htype .v5 id none).1
  exact @not_readBack_acknowledgement .standard .standard BinaryDecoder.standard_lawful
    BinaryDecoder.standard_strict type htype id id' hread

end PacketReceiver

end NioevMqtt
