import WeisleyRpc.Packet

/-!
# The header codec is exact and canonical

Writing a header and reading it back gives the same fields, and every header that is read
is the one its fields are written as: ten bytes are accepted in one form only.
-/

namespace WeisleyRpc

theorem getSerializerName_eq_ok_iff {id : ℕ} {s : SerializerName} :
    getSerializerName id = .ok s ↔ id = s.id := by
  constructor
  · intro h
    unfold getSerializerName at h
    split_ifs at h with h₁ h₂ <;> cases h <;> assumption
  · rintro rfl
    exact getSerializerName_id s

theorem getMessageType_eq_ok_iff {id : ℕ} {t : MessageType} :
    getMessageType id = .ok t ↔ id = t.id := by
  constructor
  · intro h
    unfold getMessageType at h
    split_ifs at h with h₁ h₂ h₃ h₄ <;> cases h <;> assumption
  · rintro rfl
    exact getMessageType_id t

theorem readUInt8_lt (b : Buffer) (offset : ℕ) : readUInt8 b offset < 256 := UInt8.toNat_lt _

theorem writeUInt8_readUInt8 {b : Buffer} {offset : ℕ} (h : offset < b.length) :
    writeUInt8 (readUInt8 b offset) = (b.drop offset).take 1 := by
  rw [List.drop_eq_getElem_cons h, List.take_succ_cons, List.take_zero]
  simp [writeUInt8, readUInt8, List.getD_eq_getElem?_getD, List.getElem?_eq_getElem h]

theorem writeUInt16BE_readUInt16BE {b : Buffer} {offset : ℕ} (h : offset + 1 < b.length) :
    writeUInt16BE (readUInt16BE b offset) = (b.drop offset).take 2 := by
  have hlow := readUInt8_lt b (offset + 1)
  have hdiv : readUInt16BE b offset / 256 = readUInt8 b offset := by
    unfold readUInt16BE
    omega
  have hmod : UInt8.ofNat (readUInt16BE b offset) = UInt8.ofNat (readUInt8 b (offset + 1)) := by
    apply UInt8.toNat_inj.mp
    simp only [UInt8.toNat_ofNat', readUInt16BE]
    omega
  have hlt : offset < b.length := by omega
  have hfirst := writeUInt8_readUInt8 hlt
  have hsecond := writeUInt8_readUInt8 h
  simp only [writeUInt8] at hfirst hsecond
  calc writeUInt16BE (readUInt16BE b offset)
      = [UInt8.ofNat (readUInt8 b offset)] ++ [UInt8.ofNat (readUInt8 b (offset + 1))] := by
        simp only [writeUInt16BE, hdiv, hmod, List.singleton_append]
    _ = (b.drop offset).take 1 ++ ((b.drop offset).drop 1).take 1 := by
        rw [hfirst, hsecond, List.drop_drop]
    _ = (b.drop offset).take 2 := List.take_add.symm

theorem writeUInt32BE_readUInt32BE {b : Buffer} {offset : ℕ} (h : offset + 3 < b.length) :
    writeUInt32BE (readUInt32BE b offset) = (b.drop offset).take 4 := by
  have hlow : readUInt16BE b (offset + 2) < 65536 := by
    have h₀ := readUInt8_lt b (offset + 2)
    have h₁ := readUInt8_lt b (offset + 2 + 1)
    unfold readUInt16BE
    omega
  have hdiv : readUInt32BE b offset / 65536 = readUInt16BE b offset := by
    unfold readUInt32BE
    omega
  have hmod : readUInt32BE b offset % 65536 = readUInt16BE b (offset + 2) := by
    unfold readUInt32BE
    omega
  calc writeUInt32BE (readUInt32BE b offset)
      = (b.drop offset).take 2 ++ (b.drop (offset + 2)).take 2 := by
        simp only [writeUInt32BE, hdiv, hmod]
        rw [writeUInt16BE_readUInt16BE (by omega), writeUInt16BE_readUInt16BE (by omega)]
    _ = (b.drop offset).take 2 ++ ((b.drop offset).drop 2).take 2 := by rw [List.drop_drop]
    _ = (b.drop offset).take 4 := List.take_add.symm

theorem packetHeader_of_fields {header : Buffer} {length : ℕ} {options : EncodePacketOptions}
    (hl : HEADER_LENGTH ≤ header.length) (hmagic : readUInt16BE header 0 = MAGIC_NUMBER)
    (hversion : readUInt8 header 2 = PROTOCOL_VERSION)
    (hserializer : readUInt8 header 3 = options.serializer.id)
    (htype : readUInt8 header 4 = options.messageType.id)
    (hflags : readUInt8 header 5 = options.flags.toNat)
    (hlength : readUInt32BE header 6 = length) :
    packetHeader length options = header.take HEADER_LENGTH := by
  simp only [HEADER_LENGTH] at hl ⊢
  unfold packetHeader
  rw [← hmagic, ← hversion, ← hserializer, ← htype, ← hflags, ← hlength,
    writeUInt16BE_readUInt16BE (by omega), writeUInt8_readUInt8 (by omega),
    writeUInt8_readUInt8 (by omega), writeUInt8_readUInt8 (by omega),
    writeUInt8_readUInt8 (by omega), writeUInt32BE_readUInt32BE (by omega), List.drop_zero]
  simp only [← List.take_add]

theorem decodePacketHeader_isOk_iff {header : Buffer} :
    (∃ h, decodePacketHeader header = .ok h) ↔
      HEADER_LENGTH ≤ header.length ∧ readUInt16BE header 0 = MAGIC_NUMBER ∧
        readUInt8 header 2 = PROTOCOL_VERSION ∧
        (∃ s : SerializerName, readUInt8 header 3 = s.id) ∧
        (∃ t : MessageType, readUInt8 header 4 = t.id) ∧
        readUInt32BE header 6 ≤ MAX_PACKET_LENGTH := by
  simp only [decodePacketHeader_eq_ok_iff, getSerializerName_eq_ok_iff, getMessageType_eq_ok_iff]
  constructor
  · rintro ⟨h, hl, hmagic, hversion, hs, ht, hlength, -⟩
    exact ⟨hl, hmagic, hversion, ⟨_, hs⟩, ⟨_, ht⟩, hlength⟩
  · rintro ⟨hl, hmagic, hversion, ⟨s, hs⟩, ⟨t, ht⟩, hlength⟩
    exact ⟨⟨_, _, s, t, _, _⟩, hl, hmagic, hversion, hs, ht, hlength, rfl, rfl, rfl, rfl⟩

theorem packetHeader_decoded {header : Buffer} {h : PacketHeader}
    (hd : decodePacketHeader header = .ok h) :
    packetHeader h.bodyLength ⟨h.serializer, h.messageType, UInt8.ofNat h.flags⟩ =
      header.take HEADER_LENGTH := by
  rw [decodePacketHeader_eq_ok_iff, getSerializerName_eq_ok_iff, getMessageType_eq_ok_iff] at hd
  obtain ⟨hl, hmagic, hversion, hs, ht, -, -, -, hflags, hlength⟩ := hd
  refine packetHeader_of_fields hl hmagic hversion hs ht ?_ hlength.symm
  rw [hflags, UInt8.toNat_ofNat', Nat.mod_eq_of_lt (readUInt8_lt header 5)]

/-- Encoding and decoding a packet's header are inverse to each other, and these are the
byte strings that are accepted. -/
theorem header_codec_exact_and_canonical :
    (∀ (payload : Buffer) (options : EncodePacketOptions), payload.length ≤ MAX_PACKET_LENGTH →
      ∃ packet, encodePacket payload options = .ok packet ∧
        decodePacketHeader (packet.take HEADER_LENGTH) =
          .ok ⟨MAGIC_NUMBER, PROTOCOL_VERSION, options.serializer, options.messageType,
            options.flags.toNat, payload.length⟩ ∧
        packet.drop HEADER_LENGTH = payload) ∧
    (∀ header : Buffer, (∃ h, decodePacketHeader header = .ok h) ↔
      HEADER_LENGTH ≤ header.length ∧ readUInt16BE header 0 = MAGIC_NUMBER ∧
        readUInt8 header 2 = PROTOCOL_VERSION ∧
        (∃ s : SerializerName, readUInt8 header 3 = s.id) ∧
        (∃ t : MessageType, readUInt8 header 4 = t.id) ∧
        readUInt32BE header 6 ≤ MAX_PACKET_LENGTH) ∧
    (∀ (header : Buffer) (h : PacketHeader) (payload : Buffer),
      decodePacketHeader header = .ok h → payload.length = h.bodyLength →
      ∃ packet, encodePacket payload ⟨h.serializer, h.messageType, UInt8.ofNat h.flags⟩ =
          .ok packet ∧ h.flags < 256 ∧
        packet.take HEADER_LENGTH = header.take HEADER_LENGTH) := by
  refine ⟨?_, fun header => decodePacketHeader_isOk_iff, ?_⟩
  · intro payload options hl
    refine ⟨_, encodePacket_eq_ok_iff.mpr ⟨hl, rfl⟩, ?_, ?_⟩
    · rw [List.take_left' (length_packetHeader _ _)]
      exact decodePacketHeader_packetHeader hl options
    · exact List.drop_left' (length_packetHeader _ _)
  · intro header h payload hd hp
    have hcanonical := packetHeader_decoded hd
    obtain ⟨-, -, -, -, -, hlength, -, -, hflags, hbody⟩ := decodePacketHeader_eq_ok_iff.mp hd
    refine ⟨_, encodePacket_eq_ok_iff.mpr ⟨by omega, rfl⟩, ?_, ?_⟩
    · rw [hflags]
      exact readUInt8_lt header 5
    · rw [List.take_left' (length_packetHeader _ _), hp, hcanonical]

end WeisleyRpc
