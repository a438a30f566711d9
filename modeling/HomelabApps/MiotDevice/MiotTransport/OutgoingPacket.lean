import HomelabApps.Library.Bytes
import HomelabApps.Library.JsonRoundTrip
import HomelabApps.Library.Table
import HomelabApps.Library.Utf8
import HomelabApps.MiotDevice.MiotTransport.Packets

namespace HomelabApps.MiotDevice

open HomelabApps.Library.Json
open HomelabApps.Library.Utf16
open HomelabApps.Library.Utf8
open HomelabApps.Library.Bytes
open HomelabApps.Library

structure PacketRuntime extends Runtime where
  cipher : Bytes → Bytes → Bytes → Bytes
  rangeError : Nat → Int → JsString
  stringifyError : JsString

structure PacketRuntime.Lawful (runtime : PacketRuntime) : Prop where
  length_md5 : ∀ data, (runtime.md5 data).length = 16
  decipher_cipher : ∀ key iv data, key.length = 16 → iv.length = 16 →
    runtime.decipher key iv (runtime.cipher key iv data) = .ok data
  length_cipher : ∀ key iv data, (runtime.cipher key iv data).length = 16 * (data.length / 16 + 1)
  decode_bytesOf : ∀ text, runtime.decode (bytesOf text) = utf16 text

def writeUIntBE (runtime : PacketRuntime) (header : Bytes) (value : Int) (offset size : Nat) :
    Except JsString Bytes :=
  if 0 ≤ value ∧ value < 0x100 ^ size then .ok (overwrite header offset (bytesBE size value.toNat))
  else .error (runtime.rangeError size value)

/-- The baseline of every header: the magic number, and 0xFF behind the length. -/
def baseHeader : Bytes :=
  bytesBE 2 MAGIC ++ List.replicate 2 0 ++ List.replicate (HEADER_SIZE - 4) 0xFF

structure OutgoingPacketConfig where
  token : Option Bytes
  payload : Option (List (JsString × Value))
  deviceId : Option Int
  stamp : Option Int

structure OutgoingPacket where
  header : Bytes
  token : Option Bytes
  payload : Option (List (JsString × Value))

def ID : JsString := utf16 "id"

/-- `{ id: Math.floor(Date.now() / 1000), ...payload }`: an id of the payload stands in the place of
the injected one. -/
def injectId (now : Nat) (payload : List (JsString × Value)) : List (JsString × Value) :=
  enumerate ((ID, (payload.lookup ID).getD (.number (some (numberText now)))) ::
    payload.filter fun e => e.1 ≠ ID)

def checkToken : Option Bytes → Except JsString Unit
  | none => .ok ()
  | some token =>
    if token.length ≠ 16 then
      .error (utf16 "Token must be 16 bytes (128-bit), got " ++ utf16 (toString token.length))
    else .ok ()

def writeOptional (runtime : PacketRuntime) (header : Bytes) (value : Option Int) (offset : Nat) :
    Except JsString Bytes :=
  match value with
  | none => .ok header
  | some value => writeUIntBE runtime header value offset 4

def OutgoingPacket.new (runtime : PacketRuntime) (now : Nat) (config : OutgoingPacketConfig) :
    Except JsString OutgoingPacket := do
  checkToken config.token
  let header ← writeOptional runtime baseHeader config.deviceId 8
  let header ← writeOptional runtime header config.stamp 12
  return { header, token := config.token, payload := config.payload.map (injectId now) }

/-- The plaintext under the key MD5(token) and the IV MD5(key, token). -/
def PacketRuntime.encrypt (runtime : PacketRuntime) (token plaintext : Bytes) : Bytes :=
  let key := runtime.md5 token
  runtime.cipher key (runtime.md5 (key ++ token)) plaintext

def OutgoingPacket.buildCommandPacket (runtime : PacketRuntime) (packet : OutgoingPacket)
    (payload : List (JsString × Value)) : Except JsString Bytes :=
  match packet.token with
  | none => .error (utf16 "Token is required to send command packets")
  | some token => do
    let header ← writeUIntBE runtime packet.header 0 4 4
    match stringify (.object payload) with
    | none => .error runtime.stringifyError
    | some text =>
      let encrypted := runtime.encrypt token (encode text)
      let header ← writeUIntBE runtime header (HEADER_SIZE + encrypted.length : Nat) 2 2
      let digest := runtime.md5 (header.take 16 ++ token ++ encrypted)
      return overwrite header 16 digest ++ encrypted

def OutgoingPacket.raw (runtime : PacketRuntime) (packet : OutgoingPacket) : Except JsString Bytes :=
  match packet.payload with
  | none => writeUIntBE runtime packet.header HEADER_SIZE 2 2
  | some payload => packet.buildCommandPacket runtime payload

def IncomingPacket.deviceId (packet : IncomingPacket) : Nat := readUIntBE packet.header 8 4

def IncomingPacket.checksum (packet : IncomingPacket) : Bytes := slice packet.header 16 16

structure JsonObject where
  entries : List (JsString × Value)
  isJson : (Value.object entries).isJson = true
  nodup : (entries.map Prod.fst).Nodup

section Payload

variable {es : List (JsString × Value)} {k : JsString} {v : Value} {now : Nat}

theorem get_parsed (hnodup : (es.map Prod.fst).Nodup) (h : (k, v) ∈ es) :
    (Value.object es).parsed.get k = some v.parsed := by
  have hfind : (parsedEntries es).reverse.find? (fun e => e.1 = k) = some (k, v.parsed) := by
    have hnodup' : ((parsedEntries es).reverse.map Prod.fst).Nodup := by
      rw [List.map_reverse, List.nodup_reverse, parsedEntries_eq, List.map_map]
      exact hnodup
    rw [Table.find?_eq_some_iff hnodup', List.mem_reverse, parsedEntries_eq]
    exact ⟨List.mem_map_of_mem h, rfl⟩
  rw [Value.parsed, Parsed.get, hfind]
  rfl

theorem get_parsed_of_notMem (h : k ∉ es.map Prod.fst) : (Value.object es).parsed.get k = none := by
  have hfind : (parsedEntries es).reverse.find? (fun e => e.1 = k) = none := by
    rw [List.find?_eq_none, parsedEntries_eq]
    intro e he
    rw [List.mem_reverse, List.mem_map] at he
    obtain ⟨f, hf, rfl⟩ := he
    rw [decide_eq_true_eq]
    rintro rfl
    exact h (List.mem_map_of_mem hf)
  rw [Value.parsed, Parsed.get, hfind]
  rfl

theorem mem_injectId : (k, v) ∈ injectId now es ↔
    k = ID ∧ v = (es.lookup ID).getD (.number (some (numberText now))) ∨ k ≠ ID ∧ (k, v) ∈ es := by
  rw [injectId, enumerate_perm.mem_iff, List.mem_cons, List.mem_filter, Prod.mk.injEq, decide_eq_true_eq]
  constructor
  · rintro (h | ⟨h, hne⟩)
    · exact .inl h
    · exact .inr ⟨hne, h⟩
  · rintro (h | ⟨hne, h⟩)
    · exact .inl h
    · exact .inr ⟨h, hne⟩

theorem nodup_injectId (hnodup : (es.map Prod.fst).Nodup) : ((injectId now es).map Prod.fst).Nodup := by
  have hperm := (@enumerate_perm ((ID, (es.lookup ID).getD (.number (some (numberText now)))) ::
    es.filter fun e => e.1 ≠ ID)).map Prod.fst
  rw [injectId, hperm.nodup_iff, List.map_cons, List.nodup_cons]
  refine ⟨?_, Table.nodup_filter hnodup⟩
  rw [List.mem_map]
  rintro ⟨e, he, hid⟩
  exact (of_decide_eq_true (List.mem_filter.mp he).2) hid

theorem lookup_of_mem (hnodup : (es.map Prod.fst).Nodup) (h : (k, v) ∈ es) : es.lookup k = some v := by
  induction es with
  | nil => exact absurd h List.not_mem_nil
  | cons e es ih =>
    rw [List.map_cons, List.nodup_cons] at hnodup
    rcases List.mem_cons.mp h with rfl | h
    · exact List.lookup_cons_self
    · have hne : (k == e.1) = false := by
        rw [beq_eq_false_iff_ne]
        rintro rfl
        exact hnodup.1 (List.mem_map.mpr ⟨_, h, rfl⟩)
      rw [List.lookup_cons, hne]
      exact ih hnodup.2 h

theorem lookup_of_notMem (h : k ∉ es.map Prod.fst) : es.lookup k = none := by
  rw [List.lookup_eq_none_iff]
  intro e he
  rw [bne_iff_ne]
  rintro rfl
  exact h (List.mem_map_of_mem he)

theorem isJson_injectId (h : (Value.object es).isJson = true) :
    (Value.object (injectId now es)).isJson = true := by
  rw [Value.isJson, isJsonEntries_iff] at h ⊢
  rintro ⟨k, v⟩ he
  rcases mem_injectId.mp he with ⟨rfl, rfl⟩ | ⟨hne, he⟩
  · cases hid : es.lookup ID with
    | none => exact validNumber_numberText
    | some v =>
      obtain ⟨es₁, es₂, heq, -⟩ := List.lookup_eq_some_iff.mp hid
      exact h (ID, v) (heq ▸ List.mem_append_right _ List.mem_cons_self)
  · exact h (k, v) he

theorem get_injectId (hnodup : (es.map Prod.fst).Nodup) :
    (∀ e ∈ es, (Value.object (injectId now es)).parsed.get e.1 = some e.2.parsed) ∧
      ∀ k ∉ es.map Prod.fst, (Value.object (injectId now es)).parsed.get k =
        if k = ID then some (.number (utf16 (numberText now).val)) else none := by
  have hnodup' := @nodup_injectId es now hnodup
  constructor
  · rintro ⟨k, v⟩ he
    apply get_parsed hnodup'
    by_cases hk : k = ID
    · subst hk
      rw [mem_injectId, lookup_of_mem hnodup he]
      exact .inl ⟨rfl, rfl⟩
    · exact mem_injectId.mpr (.inr ⟨hk, he⟩)
  · intro k hk
    split
    next hid =>
      subst hid
      refine get_parsed hnodup' (v := .number (some (numberText now))) ?_
      rw [mem_injectId, lookup_of_notMem hk]
      exact .inl ⟨rfl, rfl⟩
    next hid =>
      apply get_parsed_of_notMem
      rw [List.mem_map]
      rintro ⟨e, he, rfl⟩
      rcases mem_injectId.mp he with ⟨heq, -⟩ | ⟨-, he⟩
      · exact hid heq
      · exact hk (List.mem_map_of_mem he)

end Payload

section Header

variable {runtime : PacketRuntime} {header header' msg : Bytes} {offset size n o s : Nat}

theorem writeUIntBE_ok (hn : n < 0x100 ^ size) :
    writeUIntBE runtime header (n : Nat) offset size = .ok (overwrite header offset (bytesBE size n)) := by
  have hrange : (0 : Int) ≤ n ∧ (n : Int) < 0x100 ^ size := ⟨by omega, by exact_mod_cast hn⟩
  rw [writeUIntBE, if_pos hrange, Int.toNat_natCast]

theorem readUIntBE_eq : readUIntBE msg o s = numberBE (slice msg o s) := rfl

theorem readUIntBE_overwrite (hn : n < 0x100 ^ size) (h : offset + size ≤ header.length) :
    readUIntBE (overwrite header offset (bytesBE size n)) offset size = n := by
  have hslice := @slice_overwrite header (bytesBE size n) offset (by rw [length_bytesBE]; exact h)
  rw [length_bytesBE] at hslice
  rw [readUIntBE_eq, hslice, numberBE_bytesBE hn]

theorem length_field (h : offset + size ≤ header.length) :
    (overwrite header offset (bytesBE size n)).length = header.length :=
  length_overwrite (by rw [length_bytesBE]; exact h)

theorem readUIntBE_before (h : offset + size ≤ header.length) (hs : o + s ≤ offset) :
    readUIntBE (overwrite header offset (bytesBE size n)) o s = readUIntBE header o s := by
  rw [readUIntBE_eq, readUIntBE_eq, slice_overwrite_before (by rw [length_bytesBE]; exact h) hs]

theorem readUIntBE_after (h : offset + size ≤ header.length) (ho : offset + size ≤ o) :
    readUIntBE (overwrite header offset (bytesBE size n)) o s = readUIntBE header o s := by
  rw [readUIntBE_eq, readUIntBE_eq,
    slice_overwrite_after (by rw [length_bytesBE]; exact h) (by rw [length_bytesBE]; exact ho)]

def withChecksum (runtime : Runtime) (header token encrypted : Bytes) : Bytes :=
  overwrite header 16 (runtime.md5 (header.take 16 ++ token ++ encrypted))

variable {token encrypted data : Bytes} {packet : IncomingPacket}

theorem slice_zero : slice header 0 s = header.take s := by rw [slice, List.drop_zero]

theorem parse_withChecksum (hlaws : runtime.Lawful) (htoken : token.length = 16) (hheader : header.length = HEADER_SIZE)
    (hencrypted : encrypted ≠ [])
    (hdata : runtime.decipher (runtime.md5 token) (runtime.md5 (runtime.md5 token ++ token)) encrypted = .ok data) :
    parseAndDecrypt runtime.toRuntime token (withChecksum runtime.toRuntime header token encrypted ++ encrypted) =
      .ok { header := withChecksum runtime.toRuntime header token encrypted, data := some data } := by
  have hdigest := hlaws.length_md5 (header.take 16 ++ token ++ encrypted)
  have hfits : 16 + (runtime.md5 (header.take 16 ++ token ++ encrypted)).length ≤ header.length := by
    rw [hdigest, hheader]
    decide
  have hlength : (withChecksum runtime.toRuntime header token encrypted).length = HEADER_SIZE :=
    (length_overwrite hfits).trans hheader
  have hfirst : (withChecksum runtime.toRuntime header token encrypted).take 16 = header.take 16 := by
    rw [← slice_zero, withChecksum, slice_overwrite_before hfits (by decide), slice_zero]
  have hsecond : (withChecksum runtime.toRuntime header token encrypted).drop 16 =
      runtime.md5 (header.take 16 ++ token ++ encrypted) := by
    have hslice := slice_overwrite hfits
    rw [hdigest, slice, List.take_of_length_le] at hslice
    · exact hslice
    · rw [List.length_drop, length_overwrite hfits, hheader]
      decide
  rw [parseAndDecrypt, if_neg (by simpa using htoken), if_neg (by rw [List.length_append, hlength]; omega),
    List.take_left' hlength, List.drop_left' hlength]
  dsimp only
  rw [if_neg hencrypted, hfirst, hsecond, if_neg (by simp), hdata]

theorem checksum_of_parse {runtime : Runtime} (h : parseAndDecrypt runtime token msg = .ok packet)
    (hbody : HEADER_SIZE < msg.length) : packet.header = msg.take HEADER_SIZE ∧
      packet.checksum = runtime.md5 (msg.take 16 ++ token ++ msg.drop HEADER_SIZE) := by
  have hencrypted : msg.drop HEADER_SIZE ≠ [] := by
    rw [Ne, List.drop_eq_nil_iff]
    omega
  rw [parseAndDecrypt] at h
  split at h
  · cases h
  split at h
  · cases h
  dsimp only at h
  rw [if_neg hencrypted] at h
  split at h
  · cases h
  next hchecksum =>
    have hheader : packet.header = msg.take HEADER_SIZE := by
      split at h
      · exact congrArg IncomingPacket.header (Except.ok.inj h).symm
      · cases h
    refine ⟨hheader, ?_⟩
    rw [IncomingPacket.checksum, hheader, slice, List.take_of_length_le]
    · have hfirst : (msg.take HEADER_SIZE).take 16 = msg.take 16 := List.take_take
      exact hfirst ▸ not_not.mp hchecksum
    · rw [List.length_drop, List.length_take]
      exact Nat.sub_le_of_le_add (Nat.min_le_left _ _)

def commandHeader (deviceId stamp length : Nat) : Bytes :=
  let header := overwrite baseHeader 8 (bytesBE 4 deviceId)
  let header := overwrite header 12 (bytesBE 4 stamp)
  let header := overwrite header 4 (bytesBE 4 0)
  overwrite header 2 (bytesBE 2 length)

variable {deviceId stamp length : Nat}

theorem length_commandHeader :
    (overwrite baseHeader 8 (bytesBE 4 deviceId)).length = HEADER_SIZE ∧
      (overwrite (overwrite baseHeader 8 (bytesBE 4 deviceId)) 12 (bytesBE 4 stamp)).length = HEADER_SIZE ∧
      (overwrite (overwrite (overwrite baseHeader 8 (bytesBE 4 deviceId)) 12 (bytesBE 4 stamp)) 4
        (bytesBE 4 0)).length = HEADER_SIZE ∧
      (commandHeader deviceId stamp length).length = HEADER_SIZE := by
  have hbase : baseHeader.length = HEADER_SIZE := by decide
  have h1 := (length_field (n := deviceId) (show 8 + 4 ≤ baseHeader.length by decide)).trans hbase
  have h2 := (length_field (n := stamp) (show 12 + 4 ≤ _ by rw [h1]; decide)).trans h1
  have h3 := (length_field (n := 0) (show 4 + 4 ≤ _ by rw [h2]; decide)).trans h2
  exact ⟨h1, h2, h3, (length_field (n := length) (show 2 + 2 ≤ _ by rw [h3]; decide)).trans h3⟩

theorem readUIntBE_commandHeader (hdeviceId : deviceId < 0x100 ^ 4) (hstamp : stamp < 0x100 ^ 4)
    (hlength : length < 0x100 ^ 2) :
    readUIntBE (commandHeader deviceId stamp length) 8 4 = deviceId ∧
      readUIntBE (commandHeader deviceId stamp length) 12 4 = stamp ∧
      readUIntBE (commandHeader deviceId stamp length) 2 2 = length := by
  obtain ⟨h1, h2, h3, -⟩ := @length_commandHeader deviceId stamp length
  unfold commandHeader
  dsimp only
  refine ⟨?_, ?_, ?_⟩
  · rw [readUIntBE_after (by rw [h3]; decide) (by decide), readUIntBE_after (by rw [h2]; decide) (by decide),
      readUIntBE_before (by rw [h1]; decide) (by decide), readUIntBE_overwrite hdeviceId (by decide)]
  · rw [readUIntBE_after (by rw [h3]; decide) (by decide), readUIntBE_after (by rw [h2]; decide) (by decide),
      readUIntBE_overwrite hstamp (by rw [h1]; decide)]
  · exact readUIntBE_overwrite hlength (by rw [h3]; decide)

end Header

end HomelabApps.MiotDevice
