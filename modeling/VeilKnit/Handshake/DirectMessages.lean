import VeilKnit.Handshake.Wire

/-!
# What a direct message carries

A payload is written out as JSON twice, once before its padding and once behind its encryption.
Each time a byte takes two to four characters, so that the second text of a payload within the
limit for payloads can be far beyond the limit for messages. A message that is short enough
arrives as it was sent, and one that is not is refused after all checks of the payload.
-/

namespace VeilKnit.Handshake

open Library Security
open StreamTransport (saturatingAdd)

variable {Secret : Type} {direct : DirectPrimitives} {ans : Answers Secret}
  {random : MessageRandomness} {p : Process Secret} {peer applicationId sender : String}
  {payload plain key route : Bytes} {state : HandshakeState Secret}

/-- All is in order for a message to a peer but, perhaps, its size. -/
structure ReadyToSend (ans : Answers Secret) (p : Process Secret) (peer applicationId : String)
    (payload : Bytes) (state : HandshakeState Secret) (key route : Bytes) : Prop where
  named : ¬ (isBlank applicationId ∨ applicationId.utf8ByteSize > 256)
  limited : payload.length ≤ maxDirectApplicationMessageBytes / 2
  welcome : ans.isReputationBlocked peer = false
  session : p.session peer = some state
  established : state.status = .established
  mode : state.encryptionMode = .aes256Gcm
  key : state.sessionKey = some key
  route : routeTo ans peer state = .ok route

/-- A message leaves within the limit, and a receiver with the same key reads the payload. -/
def Carries (direct : DirectPrimitives) (ans : Answers Secret) (random : MessageRandomness)
    (p : Process Secret) (peer applicationId : String) (payload key route : Bytes) : Prop :=
  ∃ bytes envelope, (sendApplicationMessage direct ans random peer applicationId payload p).2 =
        p.ask (.appMessage route bytes) ∧
      bytes.length ≤ maxDirectApplicationMessageBytes ∧
      direct.envelopeFromJson bytes = .ok envelope ∧
      ∀ (receiver : HandshakeState Secret) (now : UInt64), receiver.status = .established →
        receiver.encryptionMode = .aes256Gcm → receiver.sessionKey = some key →
        ¬ (ans.clock 0 > saturatingAdd now directApplicationTimeWindowSecs ∨
          saturatingAdd (ans.clock 0) directApplicationTimeWindowSecs < now) →
        openEnvelope direct receiver envelope now =
          .ok ⟨applicationId, random.messageId, p.manager.ourDht, ans.clock 0, payload⟩

/-- The decimal digits of some bytes, with a comma for each. -/
def decimalCost (bytes : Bytes) : Nat :=
  (bytes.map fun byte => (Json.number byte.toNat).length).sum + bytes.length

/-- The nonce and the ciphertext of a padded text. -/
def directWire (direct : DirectPrimitives) (random : MessageRandomness) (key padded : Bytes) :
    Bytes :=
  random.nonce.val ++ direct.aead.encrypt key random.nonce.val padded

/-- A text has a size class, and the digits of its ciphertext are few enough. -/
structure FitsRoute (direct : DirectPrimitives) (random : MessageRandomness) (key : Bytes)
    (sender : String) (plain : Bytes) : Prop where
  classed : plain.length + 12 ≤ 64 * 1024
  short : ∀ padded, padForDirectEncryption random.fill plain = .ok padded →
    decimalCost (directWire direct random key padded) + (Json.string (utf8 sender)).length + 51 ≤
      64 * 1024

/-! ## Lengths -/

theorem length_byteArray {bytes : Bytes} (h : bytes ≠ []) :
    (Json.byteArray bytes).length = decimalCost bytes + 1 := by
  have hpos := List.length_pos_iff.mpr h
  have hdigits : decimalCost bytes =
      ((bytes.map fun byte => Json.number byte.toNat).map List.length).sum + bytes.length := by
    rw [decimalCost, List.map_map]
    rfl
  rw [hdigits, Json.byteArray, Json.length_array, List.length_map]
  omega

theorem length_directOuter {wire : Bytes} (h : wire ≠ []) :
    (directOuter sender wire).toJson.length =
      decimalCost wire + (Json.string (utf8 sender)).length + 51 := by
  have hversion : (Json.number directApplicationProtocolVersion.toNat).length = 1 := rfl
  have hnames : (Json.string (utf8 "protocol_version")).length = 18 ∧
      (Json.string (utf8 "sender_dht")).length = 12 ∧
      (Json.string (utf8 "ciphertext")).length = 12 := ⟨rfl, rfl, rfl⟩
  obtain ⟨hfirst, hsecond, hthird⟩ := hnames
  simp only [DirectApplicationEnvelope.toJson, directOuter, Json.object, Json.field,
    List.length_cons, List.length_append, Json.length_commaSeparated, List.map_cons, List.map_nil,
    List.sum_cons, List.sum_nil, List.length_nil, length_byteArray h, hversion, hfirst, hsecond,
    hthird]
  omega

theorem length_directInner (sentAt : UInt64) :
    2 * payload.length ≤ (directInner random applicationId sentAt payload).toJson.length := by
  have hpayload := Json.length_byteArray_ge payload
  simp only [DirectApplicationPayload.toJson, directInner, Json.object, Json.field,
    List.length_cons, List.length_append, Json.length_commaSeparated, List.map_cons, List.map_nil,
    List.sum_cons, List.sum_nil, List.length_nil]
  omega

theorem length_directWire (padded : Bytes) :
    (directWire direct random key padded).length = padded.length + 28 := by
  rw [directWire, List.length_append, random.nonce.property, direct.aead.length_encrypt]
  omega

theorem directWire_ne_nil (padded : Bytes) : directWire direct random key padded ≠ [] := by
  rw [← List.length_pos_iff, length_directWire]
  omega

theorem decimalCost_directWire (direct : DirectPrimitives) (random : MessageRandomness)
    (key padded : Bytes) :
    2 * (padded.length + 28) ≤ decimalCost (directWire direct random key padded) ∧
      decimalCost (directWire direct random key padded) ≤ 4 * (padded.length + 28) + 1 := by
  have hlow := Json.length_byteArray_ge (directWire direct random key padded)
  have hhigh := Json.length_byteArray_le (directWire direct random key padded)
  rw [length_byteArray (directWire_ne_nil padded), length_directWire] at hlow hhigh
  omega

/-- Texts of up to twelve kibibytes with their header always get through. -/
theorem fitsRoute_of_short (hplain : plain.length + 12 ≤ 12 * 1024)
    (hsender : sender.utf8ByteSize ≤ 2500) : FitsRoute direct random key sender plain where
  classed := by omega
  short padded hpadded := by
    have hleast := padForDirectEncryption_pads.least _ _ _ hpadded
    have hle : padded.length ≤ 12 * 1024 := hleast.2 ⟨by simp [directSizeClasses], hplain⟩
    have hdigits := (decimalCost_directWire direct random key padded).2
    have hname := Json.length_string_le (utf8 sender)
    rw [length_utf8] at hname
    omega

/-- Texts beyond the class of twenty-four kibibytes never do. -/
theorem not_fitsRoute_of_long (hplain : 24 * 1024 < plain.length + 12) :
    ¬ FitsRoute direct random key sender plain := by
  intro h
  obtain ⟨padded, hpadded⟩ := (padForDirectEncryption_pads.succeeds random.fill plain).2 h.classed
  obtain ⟨hmem, hfits⟩ := (padForDirectEncryption_pads.least _ _ _ hpadded).1
  have hshort := h.short padded hpadded
  have hdigits := (decimalCost_directWire direct random key padded).1
  simp only [directSizeClasses, List.mem_cons, List.not_mem_nil, or_false] at hmem
  omega

/-! ## Sending and receiving -/

section Ready

variable (ready : ReadyToSend ans p peer applicationId payload state key route)

include ready

theorem ReadyToSend.send_eq :
    sendApplicationMessage direct ans random peer applicationId payload p =
      sendOverSession direct ans random peer applicationId payload state p := by
  have hlimited := not_lt.mpr ready.limited
  simp [sendApplicationMessage, ready.named, hlimited, ready.welcome, ready.session,
    ready.established, ready.mode]

/-- What is sent of a padded text, if it is short enough. -/
theorem ReadyToSend.sent {padded : Bytes} (hpad : padForDirectEncryption random.fill
      (directInner random applicationId (ans.clock 0) payload).toJson = .ok padded) :
    (sendApplicationMessage direct ans random peer applicationId payload p).2 =
      let bytes := (directOuter p.manager.ourDht (directWire direct random key padded)).toJson
      if bytes.length > maxDirectApplicationMessageBytes then p
      else p.ask (.appMessage route bytes) := by
  rw [ready.send_eq, directWire]
  simp only [sendOverSession, HandshakeState.encrypt, encryptPayload, ready.key, ready.mode, hpad,
    ready.route]
  split
  · rfl
  · cases ans.appMessage route _ <;> rfl

/-- Without a size class nothing is sent. -/
theorem ReadyToSend.unsent
    (hlong : ¬ (directInner random applicationId (ans.clock 0) payload).toJson.length + 12 ≤
      64 * 1024) :
    (sendApplicationMessage direct ans random peer applicationId payload p).2 = p := by
  rw [← padForDirectEncryption_pads.succeeds random.fill] at hlong
  rw [ready.send_eq]
  cases hpad : padForDirectEncryption random.fill
      (directInner random applicationId (ans.clock 0) payload).toJson with
  | ok padded => exact absurd ⟨padded, hpad⟩ hlong
  | error e =>
    simp [sendOverSession, HandshakeState.encrypt, encryptPayload, ready.key, ready.mode, hpad]

end Ready

theorem ask_ne (effect : Effect) : p ≠ p.ask effect := by
  intro h
  have hlength := congrArg (·.effects.length) h
  simp [Process.ask] at hlength

/-- A receiver with the key undoes the encryption and the padding. -/
theorem decrypt_padded {padded : Bytes} {receiver : HandshakeState Secret}
    (hpad : padForDirectEncryption random.fill plain = .ok padded)
    (hmode : receiver.encryptionMode = .aes256Gcm) (hkey : receiver.sessionKey = some key) :
    receiver.decrypt direct (directWire direct random key padded) = .ok plain := by
  have hlong : ¬ (directWire direct random key padded).length < 12 := by
    rw [length_directWire]
    omega
  have hnonce := random.nonce.property
  simp only [HandshakeState.decrypt, decryptPayload, hkey, hmode, if_neg hlong]
  simp only [directWire, List.take_left' hnonce, List.drop_left' hnonce,
    direct.aead.decrypt_encrypt, padForDirectEncryption_pads.reads _ _ _ hpad]

/-- A payload that the limit for payloads admits is carried when its texts are short enough.
Texts of up to twelve kibibytes always are, those beyond twenty-four never. -/
theorem carries_iff (laws : ReadsDirectJson direct)
    (ready : ReadyToSend ans p peer applicationId payload state key route) :
    let plain := (directInner random applicationId (ans.clock 0) payload).toJson
    (Carries direct ans random p peer applicationId payload key route ↔
        FitsRoute direct random key p.manager.ourDht plain) ∧
      (plain.length + 12 ≤ 12 * 1024 → p.manager.ourDht.utf8ByteSize ≤ 2500 →
        FitsRoute direct random key p.manager.ourDht plain) ∧
      (24 * 1024 < plain.length + 12 → ¬ FitsRoute direct random key p.manager.ourDht plain) := by
  intro plain
  refine ⟨⟨?_, fun fits => ?_⟩, fitsRoute_of_short, not_fitsRoute_of_long⟩
  · rintro ⟨bytes, -, hsend, -⟩
    by_cases hclassed : plain.length + 12 ≤ 64 * 1024
    · refine ⟨hclassed, fun padded hpad => ?_⟩
      rw [ready.sent hpad] at hsend
      dsimp only at hsend
      rw [length_directOuter (directWire_ne_nil padded)] at hsend
      split at hsend
      · exact absurd hsend (ask_ne _)
      case isFalse hshort => exact not_lt.mp hshort
    · rw [ready.unsent hclassed] at hsend
      exact absurd hsend (ask_ne _)
  · obtain ⟨padded, hpad⟩ := (padForDirectEncryption_pads.succeeds random.fill plain).2 fits.classed
    have hshort := fits.short padded hpad
    rw [← length_directOuter (directWire_ne_nil padded)] at hshort
    refine ⟨_, _, ?_, hshort, laws.envelope _, fun receiver now hstatus hmode hkey htime => ?_⟩
    · rw [ready.sent hpad]
      exact if_neg (not_lt.mpr hshort)
    · have hread : direct.payloadFromJson plain = _ := laws.payload _
      unfold openEnvelope
      simp only [hstatus, hmode, directOuter, decrypt_padded hpad hmode hkey, ne_eq,
        not_true_eq_false, if_false, bind, Except.bind, hread]
      simp [directInner, pure, Except.pure, not_or.mp ready.named, htime]

/-! ## A small instance -/

namespace Sample

/-- A session that has been established with `b`. -/
def session : HandshakeState UInt8 :=
  { initiatedState primitives (answers 2 3 "t") "b" [] [] 1000 .aes256Gcm false false with
    status := .established, sessionKey := some [5] }

def node : Process UInt8 := (⟨Manager.new "a", []⟩ : Process UInt8).putSession "b" session

def drawn : MessageRandomness := ⟨List.replicate 16 1, ⟨List.replicate 12 2, rfl⟩, fun _ => 0⟩

theorem readyToSend (hlimited : payload.length ≤ maxDirectApplicationMessageBytes / 2) :
    ReadyToSend (answers 2 3 "t") node "b" "app" payload session [5] [] where
  named := by decide
  limited := hlimited
  welcome := rfl
  session := rfl
  established := rfl
  mode := rfl
  key := rfl
  route := rfl

end Sample

theorem short_payload_carried :
    Carries Sample.direct (Sample.answers 2 3 "t") Sample.drawn Sample.node "b" "app" [7] [5]
      [] := by
  have hlimited : ([7] : Bytes).length ≤ maxDirectApplicationMessageBytes / 2 := by decide
  obtain ⟨hiff, -⟩ := carries_iff Sample.readsDirectJson (Sample.readyToSend hlimited)
  exact hiff.mpr (fitsRoute_of_short (by decide +kernel) (by decide))

/-- Half the limit for messages is admitted, and beyond every size class once it is written out. -/
theorem full_payload_not_carried :
    ¬ ∀ payload : Bytes, payload.length ≤ maxDirectApplicationMessageBytes / 2 →
      Carries Sample.direct (Sample.answers 2 3 "t") Sample.drawn Sample.node "b" "app" payload
        [5] [] := by
  intro h
  have hlength : (List.replicate (32 * 1024) (0 : UInt8)).length = 32 * 1024 :=
    List.length_replicate
  have hlimited : (List.replicate (32 * 1024) (0 : UInt8)).length ≤
      maxDirectApplicationMessageBytes / 2 := hlength.le
  obtain ⟨bytes, -, hsend, -⟩ := h _ hlimited
  have hlong : 2 * (List.replicate (32 * 1024) (0 : UInt8)).length ≤ (directInner Sample.drawn
      "app" ((Sample.answers 2 3 "t").clock 0) _).toJson.length := length_directInner _
  rw [(Sample.readyToSend hlimited).unsent (by omega)] at hsend
  exact ask_ne _ hsend

end VeilKnit.Handshake
