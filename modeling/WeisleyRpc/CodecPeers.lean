import WeisleyRpc.CodecStream

/-!
# Packets between peers with the same options

`encode` checks the serialized message against `maxBodyLength`, `push` the packet's body,
which a compressor may have made longer. A peer with the same options then accepts an
encoded message exactly when the compressed body is within the limit too.
-/

namespace WeisleyRpc

/-- `maxDecompressedBodyLength` is unset or at least `maxBodyLength`. -/
def RpcCodecOptions.LimitsOrdered (options : RpcCodecOptions) : Prop :=
  ∀ d, options.maxDecompressedBodyLength = some (.finite d) →
    ∀ b, options.maxBodyLength.getD (.ofNat MAX_PACKET_LENGTH) = .finite b → b ≤ d

/-- The compressor, if there is one, is undone by `decompress`. -/
def RpcCodecOptions.Inflates (options : RpcCodecOptions) : Prop :=
  ∀ e, options.compression = some e → ∀ b z,
    e.compressor.compress b = .ok z → e.compressor.decompress z = .ok b

theorem normalizeLimit_eq_ok_iff {value : Option JsNumber} {fallback n : ℕ} :
    normalizeLimit value fallback = .ok n ↔
      (value = none ∧ fallback = n) ∨ ∃ q, value = some (.finite q) ∧ 0 < q ∧ q.floor.toNat = n := by
  unfold normalizeLimit
  split
  · simp
  · rename_i q
    split_ifs with hq
    · simp [Rat.not_lt.mpr hq]
    · simp [Rat.not_le.mp hq]
  · rename_i v hv
    constructor
    · intro h
      cases h
    · rintro (⟨h, -⟩ | ⟨q, h, -⟩)
      · cases h
      · exact absurd (Option.some.inj h) (hv q)

theorem normalizeLimit_isOk_iff {value : Option JsNumber} {fallback : ℕ} :
    (∃ n, normalizeLimit value fallback = .ok n) ↔ ∀ v ∈ value, ∃ q, v = .finite q ∧ 0 < q := by
  simp only [normalizeLimit_eq_ok_iff]
  cases value with
  | none => simp
  | some v =>
    constructor
    · rintro ⟨n, ⟨h, -⟩ | ⟨q, h, hq, -⟩⟩ v' hv'
      · cases h
      · obtain rfl := Option.some.inj hv'
        exact ⟨q, Option.some.inj h, hq⟩
    · intro h
      obtain ⟨q, rfl, hq⟩ := h v rfl
      exact ⟨_, Or.inr ⟨q, rfl, hq, rfl⟩⟩

theorem normalizeLimit_ofNat {n : ℕ} (h : 0 < n) (fallback : ℕ) :
    normalizeLimit (some (.ofNat n)) fallback = .ok n := by
  refine normalizeLimit_eq_ok_iff.mpr (Or.inr ⟨n, rfl, by exact_mod_cast h, ?_⟩)
  have hfloor : (n : ℚ).floor = (n : ℤ) := Rat.floor_intCast _
  rw [hfloor, Int.toNat_natCast]

theorem limits_ordered {options : RpcCodecOptions} {codec : RpcCodec}
    (hnew : RpcCodec.new options = .ok codec) (hl : options.LimitsOrdered) :
    codec.config.maxBodyLength ≤ codec.config.maxDecompressedBodyLength := by
  simp only [RpcCodec.new, Except.bind_eq_ok_iff, normalizeLimit_eq_ok_iff, pure, Except.pure,
    Except.ok.injEq] at hnew
  obtain ⟨body, hbody, decompressed, hd, rfl⟩ := hnew
  rcases hd with ⟨-, rfl⟩ | ⟨d, hd, -, rfl⟩
  · exact Nat.le_refl _
  · have hmono : ∀ b : ℚ, options.maxBodyLength.getD (.ofNat MAX_PACKET_LENGTH) = .finite b →
        b.floor.toNat ≤ d.floor.toNat := fun b hb =>
      Int.toNat_le_toNat (Rat.floor_monotone (hl d hd b hb))
    rcases hbody with ⟨hb, rfl⟩ | ⟨b, hb, -, rfl⟩
    · have hdefault := hmono MAX_PACKET_LENGTH (by rw [hb]; rfl)
      have hfloor : (MAX_PACKET_LENGTH : ℚ).floor = (MAX_PACKET_LENGTH : ℤ) := Rat.floor_intCast _
      rwa [hfloor, Int.toNat_natCast] at hdefault
    · exact hmono b (by rw [hb]; rfl)

namespace CodecConfig

/-- What a message and the body of its packet have to meet at a peer with this configuration. -/
structure Deliverable (c : CodecConfig) (message : JsValue) : Prop where
  known : ∃ messageType : MessageType, message.get "type" = .ok (.string messageType.text)
  body : ∀ serialized payload, c.defaultSerializer.serialize message = .ok serialized →
    c.payloadOf serialized = .ok payload → payload.length ≤ c.maxBodyLength
  registered : ∀ serialized, c.defaultSerializer.serialize message = .ok serialized →
    ∃ s, c.serializers.get c.defaultSerializer.name = some s ∧
      s.deserialize serialized = c.defaultSerializer.deserialize serialized

end CodecConfig

section Peers
variable {options : RpcCodecOptions} {codec : RpcCodec} {message : JsValue} {packet : Buffer}

/-- A fresh peer returns an encoded message exactly when its body, compressed or not, is no
longer than the limit and the serializer registered for it is the one that wrote it. -/
theorem push_encoded_iff (hnew : RpcCodec.new options = .ok codec) (hl : options.LimitsOrdered)
    (hz : options.Inflates)
    (hs : ∀ b, options.serializer.serialize message = .ok b →
      options.serializer.deserialize b = .ok message)
    (he : codec.encode message = .ok packet) :
    (codec.push packet).1 = .ok [message] ↔ codec.config.Deliverable message := by
  have hle := limits_ordered hnew hl
  have hq : codec.queue.bytes = [] := by
    rw [RpcCodec.queue_new hnew]
    rfl
  obtain ⟨_, _, hcodec⟩ := RpcCodec.new_eq_ok hnew
  have hz' : ∀ e, codec.config.compression = some e → ∀ b z,
      e.compressor.compress b = .ok z → e.compressor.decompress z = .ok b := by
    rw [hcodec]
    exact hz
  have hs' : ∀ b, codec.config.defaultSerializer.serialize message = .ok b →
      codec.config.defaultSerializer.deserialize b = .ok message := by
    rw [hcodec]
    exact hs
  obtain ⟨serialized, hser, hlen, payload, hp, type, ht, hmax, rfl⟩ :=
    CodecConfig.encode_eq_ok_iff.mp he
  have hinflated := CodecConfig.bodyPayload_payloadOf (fun e h => ⟨e, h, rfl⟩) hz' hp
  rw [RpcCodec.push_eq_ok_iff, hq, List.nil_append, CodecConfig.decode]
  by_cases hknown : ∃ messageType : MessageType, type = .string messageType.text
  swap
  · have hno : MessageType.ofValue type = none := by
      cases hm : MessageType.ofValue type with
      | none => rfl
      | some t => exact absurd ⟨t, MessageType.ofValue_eq_some_iff.mp hm⟩ hknown
    obtain ⟨e, hf⟩ := (CodecConfig.blocks_untyped (c := codec.config) payload payload.length
      codec.config.defaultSerializer.name (codec.config.flagsOf serialized)).front_append []
    rw [List.append_nil] at hf
    rw [CodecConfig.headerOf, hno, Framer.parse_fatal hf]
    refine ⟨fun h => absurd h.1 (by simp), fun h => ?_⟩
    obtain ⟨t, ht'⟩ := h.known
    exact absurd ⟨t, Except.ok.inj (ht.symm.trans ht')⟩ hknown
  obtain ⟨messageType, rfl⟩ := hknown
  rw [CodecConfig.headerOf_text, (CodecConfig.isPacket hmax _).parse_iff,
    CodecConfig.decodeBody_eq_ok_iff]
  simp only [decodedHeader]
  constructor
  · rintro ⟨hbody, s, hget, body, hb, -, hd, -⟩
    obtain rfl := Except.ok.inj (hinflated.symm.trans hb)
    refine ⟨⟨messageType, ht⟩, fun b p hb hp' => ?_, fun b hb => ⟨s, hget, ?_⟩⟩
    · obtain rfl := Except.ok.inj (hser.symm.trans hb)
      obtain rfl := Except.ok.inj (hp.symm.trans hp')
      exact hbody
    · obtain rfl := Except.ok.inj (hser.symm.trans hb)
      exact hd.trans (hs' _ hser).symm
  · intro h
    obtain ⟨s, hget, hd⟩ := h.registered serialized hser
    exact ⟨h.body _ _ hser hp, s, hget, serialized, hinflated, Nat.le_trans hlen hle,
      hd.trans (hs' _ hser), ht⟩

end Peers

/-- It puts one byte in front, as a compressor does that stores what it cannot shorten. -/
def sampleCompressor : Compressor where
  name := "stored"
  compress payload := .ok (0 :: payload)
  decompress
    | 0 :: payload => .ok payload
    | _ => .error (.platform "Error" "incorrect header check")

def sampleStoring (limit : ℕ) : RpcCodecOptions where
  serializer := .ofTable sampleTable
  serializers := []
  compression := some ⟨sampleCompressor, .ofNat 0⟩
  maxBodyLength := some (.ofNat limit)
  maxDecompressedBodyLength := none

def sampleStoringCodec (limit : ℕ) : RpcCodec where
  config := {
    defaultSerializer := .ofTable sampleTable
    serializers := OrderedMap.empty.set .json (.ofTable sampleTable)
    compression := some ⟨sampleCompressor, .ofNat 0⟩
    maxBodyLength := limit
    maxDecompressedBodyLength := limit }
  queue := .empty

theorem new_sampleStoring {limit : ℕ} (h : 0 < limit) :
    RpcCodec.new (sampleStoring limit) = .ok (sampleStoringCodec limit) := by
  simp only [RpcCodec.new, sampleStoring, normalizeLimit_ofNat h]
  rfl

theorem limitsOrdered_sampleStoring (limit : ℕ) : (sampleStoring limit).LimitsOrdered := by
  intro d hd
  cases hd

theorem inflates_sampleStoring (limit : ℕ) : (sampleStoring limit).Inflates := by
  intro e he b z hz
  obtain rfl := Option.some.inj he
  obtain rfl := Except.ok.inj hz
  rfl

theorem roundTrip_samplePing (b : Buffer)
    (h : (Serializer.ofTable sampleTable).serialize samplePing = .ok b) :
    (Serializer.ofTable sampleTable).deserialize b = .ok samplePing := by
  have hs : (Serializer.ofTable sampleTable).serialize samplePing =
      .ok ("\x7b\"type\":\"ping\",\"id\":\"1\",\"timestamp\":5\x7d".toUTF8.data.toList) := by
    decide +kernel
  obtain rfl := Except.ok.inj (hs.symm.trans h)
  decide +kernel

/-- A ping of 38 bytes is 39 when it is stored. -/
theorem lengthened_packet_refused :
    RpcCodec.new (sampleStoring 38) = .ok (sampleStoringCodec 38) ∧
      (sampleStoring 38).LimitsOrdered ∧ (sampleStoring 38).Inflates ∧
      (∀ b, (sampleStoring 38).serializer.serialize samplePing = .ok b →
        (sampleStoring 38).serializer.deserialize b = .ok samplePing) ∧
      ∃ packet, (sampleStoringCodec 38).encode samplePing = .ok packet ∧
        ((sampleStoringCodec 38).push packet).1 =
          .error (.rangeError "Packet body length 39 exceeds limit 38") :=
  ⟨new_sampleStoring (by decide), limitsOrdered_sampleStoring 38, inflates_sampleStoring 38,
    roundTrip_samplePing, ((sampleStoringCodec 38).encode samplePing).toOption.getD [],
    by decide +kernel⟩

theorem push_encoded_iff_sample :
    ((sampleStoringCodec 39).push
        (((sampleStoringCodec 39).encode samplePing).toOption.getD [])).1 = .ok [samplePing] ↔
      (sampleStoringCodec 39).config.Deliverable samplePing :=
  push_encoded_iff (new_sampleStoring (by decide)) (limitsOrdered_sampleStoring 39)
    (inflates_sampleStoring 39) roundTrip_samplePing (by decide +kernel)

end WeisleyRpc
