-- SUMMARY: PUBLISH packets that are sent again, with the DUP flag, to a connection of any version: the message arrives as it was exactly if the packet was built for that version.
import NioevMqtt.Connection.PublishRoundTrip

/-!
# Packets that are sent again

A login sends the stored packets of its session as they are, whatever version they were
built for. The other end has none but its own version to read them by.
-/

namespace NioevMqtt

/-! ## The DUP flag -/

namespace Frame

/-- The same packet, sent again. -/
def dup : Frame → Frame
  | fromFirstByte firstByte => fromFirstByte (firstByte ||| 0x08)
  | fromData firstByte buffer => fromData (firstByte ||| 0x08) buffer
  | fromComponents firstByte middle end_ => fromComponents (firstByte ||| 0x08) middle end_
  | fromComponentsWithId firstByte middle packetId end_ =>
    fromComponentsWithId (firstByte ||| 0x08) middle packetId end_

theorem packet_dup [Libnioev] (f : Frame) : f.dup.packet = f.packet.setDupFlag := by
  cases f with
  | _ => rfl

theorem firstByte_dup (f : Frame) : f.dup.firstByte = f.firstByte ||| 0x08 := by
  cases f with
  | _ => rfl

theorem body_dup (f : Frame) : f.dup.body = f.body := by
  cases f with
  | _ => rfl

end Frame

section

variable [Libnioev] [LawfulLibnioev] {σ : Type*} {handlePacketReceived : PacketHandler σ}

/-- Where the handler throws on a packet, the loop ends. -/
theorem receiveLoop_frame_throws {s : LoopState σ} (hidle : s.recvData.recvState = .idle)
    {frame : Frame} (htype : ValidType frame.firstByte)
    (hlength : frame.body.length ≤ maxReceivedLength) (hne : frame.body ≠ []) :
    ∃ called : PacketReceiveData, called.received = (frame.firstByte, frame.body) ∧
      called.messageType = .ofUInt8 (frame.firstByte >>> 4) ∧
      ∀ world e, handlePacketReceived called s.world = (world, some e) →
        ∃ stop, receiveLoop handlePacketReceived frame.packet.wireBytes s = .error stop := by
  have hmax : frame.body.length ≤ maxVarByteInt := hlength.trans (by decide)
  have hstart : Consumes handlePacketReceived _ s _ := consumes_start hidle htype
  have hvalue : (PacketReceiveData.start {} frame.firstByte).packetLength.toNat +
      frame.body.length * 128 ^ 0 = frame.body.length := by
    show 0 + frame.body.length * 1 = frame.body.length
    omega
  have hpositive : ∃ t, Consumes handlePacketReceived _ _ t ∧ BodyNext _ _ t :=
    consumes_positiveLength
      (s := { s with recvData := .start {} frame.firstByte, position := s.position + 1 })
      (lengthReady_start frame.firstByte hmax) (by decide) (hlength.trans_lt (by decide))
      (by rw [hvalue]; exact fun hzero => hne (List.eq_nil_of_length_eq_zero hzero))
  obtain ⟨t, hlen, hnext⟩ := hpositive
  rw [hvalue] at hnext
  obtain ⟨hfirst, hbuffer⟩ := Prod.mk.injEq .. ▸ hnext.received_eq
  refine ⟨{ t.recvData with currentReceiveBuffer := frame.body }, congrArg (·, frame.body) hfirst,
    hnext.messageType_eq, fun world e hcall => ?_⟩
  have hworld : t.world = s.world := hnext.world_eq
  rw [frame.wireBytes_packet hmax, ← List.singleton_append, hstart, hlen]
  -- The body is the last iteration.
  have hempty : t.recvData.currentReceiveBuffer = [] := hbuffer
  have hdata := @receiveData_of_ge t.recvData frame.body (by rw [hempty]; exact Nat.zero_le _)
    (by rw [hempty, hnext.packetLength_eq]; exact Nat.le_add_left _ _)
  have hfill : t.recvData.fill frame.body = { t.recvData with currentReceiveBuffer := frame.body } := by
    simp only [PacketReceiveData.fill, hempty, hnext.packetLength_eq, List.length_nil, Nat.sub_zero,
      List.nil_append, List.take_length]
  rw [hfill] at hdata
  obtain ⟨b, bytes, hbody⟩ := List.exists_cons_of_ne_nil hne
  have hiter : receiveIteration t.recvData b bytes = receiveData t.recvData frame.body := by
    rw [receiveIteration, hnext.recvState_eq, ← hbody]
  rw [hbody, receiveLoop_cons, iterate, hiter, hdata]
  simp only [hworld, hcall]
  exact ⟨_, rfl⟩

end

namespace MQTTPublishPacketBuilder

/-- The flag changes none of the others. -/
theorem bits_firstByte_dup (retained : Retained) (qos : QoS) :
    ((firstByte retained qos ||| 0x08) >>> 1) &&& 0x3 = qos.toUInt8 ∧ ¬ qos.toUInt8 ≥ 3 ∧
      (if (firstByte retained qos ||| 0x08) &&& 0x1 = 0 then Retain.no else .yes) = retained.retain ∧
      (firstByte retained qos ||| 0x08) >>> 4 = MQTTMessageType.publish.toUInt8 := by
  cases retained with
  | no =>
      cases qos with
      | qos0 => decide
      | qos1 => decide
      | qos2 => decide
  | yes =>
      cases qos with
      | qos0 => decide
      | qos1 => decide
      | qos2 => decide

variable [Libnioev] [BinaryDecoder] [LawfulBinaryDecoder] {b : MQTTPublishPacketBuilder}
  {request : PacketRequest}

/-- Up to its properties and its payload a packet is read as it was written, by any version. -/
theorem handlePublish_dup (htopic : b.mTopic ≠ []) (hlength : b.mTopic.length ≤ maxStringLength)
    {recvData : PacketReceiveData}
    (hreceived : recvData.received = ((b.frame request).dup.firstByte, (b.frame request).dup.body))
    {c : PublishReceiver}
    (hfresh : request.qos = .qos2 →
      ∃ ids, c.mQoS2receivingPacketIds = some ids ∧ request.packetId ∉ ids) :
    ∃ c' : PublishReceiver, c'.published = c.published ∧ c'.mMQTTVersion = c.mMQTTVersion ∧
      PublishReceiver.handlePublish recvData c =
        c'.deliverOnward b.mTopic request.qos b.mRetained.retain (b.encodeEnd request.version) := by
  obtain ⟨hfirst, hbody⟩ := Prod.mk.injEq .. ▸ hreceived
  rw [Frame.firstByte_dup, firstByte_frame] at hfirst
  rw [Frame.body_dup, body_frame] at hbody
  obtain ⟨hqos, hvalid, hretain, -⟩ := bits_firstByte_dup b.mRetained request.qos
  have hid := LawfulBinaryDecoder.decode2Bytes_append request.packetId
  unfold PublishReceiver.handlePublish
  simp only [hfirst, hqos, if_neg hvalid, hretain, QoS.ofUInt8_toUInt8, hbody,
    decodeString_append hlength, if_neg htopic]
  unfold idBytes
  cases hq : request.qos with
  | qos0 =>
      simp only [if_true, List.nil_append]
      exact ⟨c, rfl, rfl, rfl⟩
  | qos1 =>
      simp only [reduceCtorEq, if_false, hid]
      exact ⟨c.reply .puback request.packetId, rfl, rfl, rfl⟩
  | qos2 =>
      obtain ⟨ids, hids, hnew⟩ := hfresh hq
      simp only [reduceCtorEq, if_false, hid, hids, if_neg hnew]
      exact ⟨{ c with mQoS2receivingPacketIds := some (insert request.packetId ids) }.reply .pubrec
        request.packetId, rfl, rfl, rfl⟩

/-! ## Packets of another version -/

/-- The message as a connection of some version is to see it. -/
def messageFor (b : MQTTPublishPacketBuilder) (request : PacketRequest) (version : MQTTVersion) :
    MQTTPacket :=
  b.message { request with version }

omit [BinaryDecoder] [LawfulBinaryDecoder] in
/-- A property list has at least its length to be read. -/
theorem encodePropertyList_ne_nil
    (htakes : ∀ bytes properties rest,
      Libnioev.decodeProperties bytes = some (properties, rest) → rest.length < bytes.length)
    {properties : PropertyList} (hproperties : Libnioev.ReadsBack properties) :
    Libnioev.encodePropertyList properties ≠ [] := by
  intro hnil
  have hback := htakes _ _ _ (hproperties [])
  rw [hnil] at hback
  exact absurd hback (Nat.lt_irrefl _)

omit [LawfulBinaryDecoder] in
/-- What is behind the identifier is the properties and the payload for the version it was
written for only: another either throws or takes a part of one for the other. -/
theorem deliverOnward_encodeEnd_iff
    (htakes : ∀ bytes properties rest,
      Libnioev.decodeProperties bytes = some (properties, rest) → rest.length < bytes.length)
    (hproperties : Libnioev.ReadsBack b.mProperties) (c : PublishReceiver) :
    (∃ world, c.deliverOnward b.mTopic request.qos b.mRetained.retain
          (b.encodeEnd request.version) = (world, none) ∧
        world.published = c.published ++ [b.messageFor request c.mMQTTVersion]) ↔
      request.version = c.mMQTTVersion := by
  constructor
  · rintro ⟨world, heq, hpublished⟩
    by_contra hversion
    unfold PublishReceiver.deliverOnward encodeEnd at heq
    cases hstored : request.version with
    | v4 =>
        cases hreads : c.mMQTTVersion with
        | v4 => exact hversion (hstored.trans hreads.symm)
        | v5 =>
            simp only [hstored, hreads, if_true, reduceCtorEq, if_false, List.nil_append] at heq
            cases hdecoded : Libnioev.decodeProperties b.mPayload with
            | none =>
                rw [hdecoded] at heq
                cases heq
            | some decoded =>
                obtain ⟨properties, payload⟩ := decoded
                rw [hdecoded] at heq
                cases heq
                -- The payload has lost what was taken for its properties.
                have hshort := htakes _ _ _ hdecoded
                have hmessage := List.singleton_inj.mp (List.append_cancel_left hpublished)
                have hpayload : payload = b.mPayload := congrArg MQTTPacket.payload hmessage
                rw [hpayload] at hshort
                exact absurd hshort (Nat.lt_irrefl _)
    | v5 =>
        cases hreads : c.mMQTTVersion with
        | v5 => exact hversion (hstored.trans hreads.symm)
        | v4 =>
            simp only [hstored, hreads, if_true, reduceCtorEq, if_false] at heq
            cases heq
            -- The properties stand in front of the payload.
            have hmessage := List.singleton_inj.mp (List.append_cancel_left hpublished)
            have hpayload : Libnioev.encodePropertyList b.mProperties ++ b.mPayload =
                b.mPayload := congrArg MQTTPacket.payload hmessage
            exact encodePropertyList_ne_nil htakes hproperties
              (List.append_left_eq_self.mp hpayload)
  · intro hversion
    refine ⟨_, deliverOnward_encodeEnd hproperties hversion.symm, ?_⟩
    rw [messageFor, ← hversion]

omit [LawfulBinaryDecoder] in
/-- The branch reads no more of a packet than what was received. -/
theorem handlePublish_congr {recvData recvData' : PacketReceiveData}
    (h : recvData.received = recvData'.received) (c : PublishReceiver) :
    PublishReceiver.handlePublish recvData c = PublishReceiver.handlePublish recvData' c := by
  obtain ⟨hfirst, hbuffer⟩ := Prod.mk.injEq .. ▸ h
  unfold PublishReceiver.handlePublish
  rw [hfirst, hbuffer]

variable [LawfulLibnioev]

/-- A packet that is sent again gives the connection that receives it, in whatever pieces,
the message that was published exactly if it was built for the version of that connection. -/
theorem receives_setDupFlag_iff
    (htakes : ∀ bytes properties rest,
      Libnioev.decodeProperties bytes = some (properties, rest) → rest.length < bytes.length)
    (htopic : b.mTopic ≠ []) (hlength : b.mTopic.length ≤ maxStringLength)
    (hproperties : Libnioev.ReadsBack b.mProperties)
    (hcount : MQTTMessageType.publish.toUInt8.toNat < Libnioev.messageTypeCount)
    (hbody : (b.freshPacket request).bodyLength ≤ maxReceivedLength)
    (others : PacketHandler PublishReceiver) {s : LoopState PublishReceiver}
    (hidle : s.recvData.recvState = .idle)
    (hfresh : request.qos = .qos2 →
      ∃ ids, s.world.mQoS2receivingPacketIds = some ids ∧ request.packetId ∉ ids)
    {chunks : List (List UInt8)}
    (hchunks : chunks.flatten = (b.freshPacket request).setDupFlag.wireBytes) :
    (∃ s', receiveChunks (PublishReceiver.handlePacketReceived others) chunks s = .ok s' ∧
        s'.world.published =
          s.world.published ++ [b.messageFor request s.world.mMQTTVersion]) ↔
      request.version = s.world.mMQTTVersion := by
  have hframed : s.recvData.Framed := by
    unfold PacketReceiveData.Framed
    rw [hidle]
    trivial
  have hne : (b.frame request).dup.body ≠ [] := by
    rw [Frame.body_dup, body_frame]
    exact List.append_ne_nil_of_left_ne_nil (encodeString_ne_nil hlength htopic) _
  have htype : (b.frame request).dup.firstByte >>> 4 = MQTTMessageType.publish.toUInt8 := by
    rw [Frame.firstByte_dup, firstByte_frame]
    exact (bits_firstByte_dup b.mRetained request.qos).2.2.2
  have hvalid : ValidType (b.frame request).dup.firstByte := by
    unfold ValidType
    rw [htype]
    exact ⟨hcount, by decide⟩
  rw [← packet_frame, ← Frame.packet_dup] at hchunks
  rw [← packet_frame, Frame.bodyLength_packet, ← Frame.body_dup] at hbody
  rw [receiveChunks, (elementwise_receiveLoop _).foldlM_flatten chunks hframed, hchunks]
  have hhandles : ∀ called : PacketReceiveData,
      called.messageType = .ofUInt8 ((b.frame request).dup.firstByte >>> 4) →
        PublishReceiver.handlePacketReceived others called s.world =
          PublishReceiver.handlePublish called s.world := by
    intro called hcalled
    rw [htype] at hcalled
    exact if_pos hcalled
  have hreturns : ∃ called : PacketReceiveData, _ ∧ _ ∧
      ∀ world, PublishReceiver.handlePacketReceived others called s.world = (world, none) → _ :=
    consumes_frameWithBody hidle hvalid hbody hne
  obtain ⟨called, hreceived, hcalled, hconsumes⟩ := hreturns
  obtain ⟨c, hpublished, hversion, hpublish⟩ := handlePublish_dup htopic hlength hreceived hfresh
  have harrives : _ ↔ request.version = c.mMQTTVersion :=
    deliverOnward_encodeEnd_iff htakes hproperties c
  rw [hpublished, hversion, ← hpublish] at harrives
  rw [← harrives]
  -- The branch returns, and the loop with it, or it throws, and so does the loop.
  rcases hresult : PublishReceiver.handlePublish called s.world with ⟨world, _ | e⟩
  · obtain ⟨s', hs', -, -, hworld⟩ := hconsumes world ((hhandles called hcalled).trans hresult)
    have hloop := hs' []
    rw [List.append_nil, receiveLoop_nil] at hloop
    constructor
    · rintro ⟨t, ht, hmessage⟩
      cases hloop.symm.trans ht
      exact ⟨world, rfl, hworld ▸ hmessage⟩
    · rintro ⟨world', heq, hmessage⟩
      cases heq
      exact ⟨s', hloop, hworld ▸ hmessage⟩
  · have hthrows : ∃ called : PacketReceiveData, _ ∧ _ ∧ ∀ world e,
        PublishReceiver.handlePacketReceived others called s.world = (world, some e) → _ :=
      receiveLoop_frame_throws hidle hvalid hbody hne
    obtain ⟨called', hreceived', hcalled', hstops⟩ := hthrows
    have hresult' := (handlePublish_congr (hreceived'.trans hreceived.symm) s.world).trans hresult
    obtain ⟨stop, hstop⟩ := hstops world e ((hhandles called' hcalled').trans hresult')
    constructor
    · rintro ⟨t, ht, -⟩
      cases hstop.symm.trans ht
    · rintro ⟨world', heq, -⟩
      cases heq

end MQTTPublishPacketBuilder

/-- The length of a property list is read at least. -/
theorem Libnioev.standard_takes (bytes : List UInt8) (properties : PropertyList)
    (rest : List UInt8) (h : Libnioev.standard.decodeProperties bytes = some (properties, rest)) :
    rest.length < bytes.length := by
  unfold Libnioev.standard at h
  dsimp only at h
  split at h
  · cases h
    exact Nat.lt_succ_self _
  · cases h

end NioevMqtt
