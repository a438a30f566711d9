import HomelabApps.MiotDevice.MiotTransport.OutgoingPacket

namespace HomelabApps.MiotDevice

open HomelabApps.Library.Json
open HomelabApps.Library.Utf16
open HomelabApps.Library.Utf8
open HomelabApps.Library.Bytes

variable {runtime : PacketRuntime} {token : Bytes} {es : List (JsString × Value)} {header : Bytes}

theorem json_encode (hlaws : runtime.Lawful) (h : (Value.object es).isJson = true) :
    IncomingPacket.json runtime.toRuntime { header, data := some (encode (Value.object es).text) } =
      .ok (some (Value.object es).parsed) := by
  have hdecode : runtime.decode (encode (Value.object es).text) = (Value.object es).text :=
    (hlaws.decode_bytesOf _).trans (utf16_textOf (wellFormed_text _))
  have hnul : (Value.object es).text.rdropWhile (· = NUL) = (Value.object es).text := by
    rw [Value.text, show utf16 "\x7d" = [0x7D] by decide]
    exact List.rdropWhile_concat_neg _ _ 0x7D (by decide)
  rw [IncomingPacket.json]
  dsimp only
  rw [hdecode, hnul, parse_text h]

theorem new_ok {deviceId stamp now : Nat} (htoken : token.length = 16) (hdeviceId : deviceId < 0x100 ^ 4)
    (hstamp : stamp < 0x100 ^ 4) :
    OutgoingPacket.new runtime now
        { token := some token, payload := some es, deviceId := some deviceId, stamp := some stamp } =
      .ok { header := overwrite (overwrite baseHeader 8 (bytesBE 4 deviceId)) 12 (bytesBE 4 stamp)
            token := some token
            payload := some (injectId now es) } := by
  rw [OutgoingPacket.new, checkToken, if_neg (by simpa using htoken)]
  simp only [writeOptional, writeUIntBE_ok hdeviceId, writeUIntBE_ok hstamp]
  rfl

theorem ok_bind (bytes : Bytes) (f : Bytes → Except JsString Bytes) : (Except.ok bytes >>= f) = f bytes := rfl

theorem buildCommandPacket_ok (hjson : (Value.object es).isJson = true)
    (hfits : HEADER_SIZE + (runtime.encrypt token (encode (Value.object es).text)).length < 0x100 ^ 2) :
    OutgoingPacket.buildCommandPacket runtime { header, token := some token, payload := some es } es =
      let encrypted := runtime.encrypt token (encode (Value.object es).text)
      let header := overwrite header 4 (bytesBE 4 0)
      let header := overwrite header 2 (bytesBE 2 (HEADER_SIZE + encrypted.length))
      .ok (withChecksum runtime.toRuntime header token encrypted ++ encrypted) := by
  have hzero : writeUIntBE runtime header 0 4 4 = .ok (overwrite header 4 (bytesBE 4 0)) :=
    writeUIntBE_ok (n := 0) (by decide)
  have htext : stringify (.object es) = some (Value.object es).text := if_pos (acyclic_of_isJson hjson)
  unfold OutgoingPacket.buildCommandPacket
  dsimp only
  rw [hzero, ok_bind, htext]
  dsimp only
  rw [writeUIntBE_ok hfits, ok_bind]
  rfl

theorem encrypt_ne_nil (hlaws : runtime.Lawful) {plaintext : Bytes} : runtime.encrypt token plaintext ≠ [] := by
  intro hnil
  have hlength := hlaws.length_cipher (runtime.md5 token) (runtime.md5 (runtime.md5 token ++ token)) plaintext
  rw [PacketRuntime.encrypt] at hnil
  rw [hnil, List.length_nil] at hlength
  omega

theorem readUIntBE_withChecksum (hlaws : runtime.Lawful) {encrypted : Bytes} {o s : Nat}
    (hheader : header.length = HEADER_SIZE) (hs : o + s ≤ 16) :
    readUIntBE (withChecksum runtime.toRuntime header token encrypted) o s = readUIntBE header o s := by
  rw [readUIntBE_eq, readUIntBE_eq, withChecksum, slice_overwrite_before _ hs]
  rw [hlaws.length_md5, hheader]
  decide

theorem packet_roundTrip {runtime : PacketRuntime} (hlaws : runtime.Lawful) {token : Bytes}
    (htoken : token.length = 16) {deviceId stamp : Nat} (hdeviceId : deviceId < 0x100 ^ 4)
    (hstamp : stamp < 0x100 ^ 4) (payload : JsonObject) (now : Nat)
    (hfits : HEADER_SIZE +
      (runtime.encrypt token (encode (Value.object (injectId now payload.entries)).text)).length < 0x100 ^ 2) :
    (∃ msg packet json,
      ((OutgoingPacket.new runtime now
          { token := some token, payload := some payload.entries, deviceId := some deviceId, stamp := some stamp }).bind
            fun packet => packet.raw runtime) = .ok msg ∧
        parseAndDecrypt runtime.toRuntime token msg = .ok packet ∧
        packet.json runtime.toRuntime = .ok (some json) ∧
        json = (Value.object (injectId now payload.entries)).parsed ∧
        (∀ e ∈ payload.entries, json.get e.1 = some e.2.parsed) ∧
        (∀ k ∉ payload.entries.map Prod.fst,
          json.get k = if k = ID then some (.number (utf16 (toString now))) else none) ∧
        packet.deviceId = deviceId ∧ packet.stamp = stamp ∧ readUIntBE msg 2 2 = msg.length ∧
        packet.checksum = runtime.md5 (msg.take 16 ++ token ++ msg.drop HEADER_SIZE)) ∧
      ∀ token msg packet, parseAndDecrypt runtime.toRuntime token msg = .ok packet →
        HEADER_SIZE < msg.length → packet.header = msg.take HEADER_SIZE ∧
          packet.checksum = runtime.md5 (msg.take 16 ++ token ++ msg.drop HEADER_SIZE) := by
  refine ⟨?_, fun token msg packet h hbody => checksum_of_parse h hbody⟩
  set es := injectId now payload.entries
  have hjson : (Value.object es).isJson = true := isJson_injectId payload.isJson
  set encrypted := runtime.encrypt token (encode (Value.object es).text) with hencrypted
  have hheader : (commandHeader deviceId stamp (HEADER_SIZE + encrypted.length)).length = HEADER_SIZE :=
    length_commandHeader.2.2.2
  obtain ⟨hread, hread', hread''⟩ := readUIntBE_commandHeader hdeviceId hstamp hfits
  have hkey := hlaws.length_md5
  have hdata := hlaws.decipher_cipher (runtime.md5 token) (runtime.md5 (runtime.md5 token ++ token))
    (encode (Value.object es).text) (hkey _) (hkey _)
  have hparse := parse_withChecksum hlaws htoken hheader (encrypt_ne_nil hlaws) hdata
  have hlength : (withChecksum runtime.toRuntime (commandHeader deviceId stamp (HEADER_SIZE + encrypted.length))
      token encrypted).length = HEADER_SIZE :=
    (length_overwrite (by rw [hkey, hheader]; decide)).trans hheader
  refine ⟨_, _, _, ?_, hparse, json_encode hlaws hjson, rfl, (get_injectId payload.nodup).1,
    (get_injectId payload.nodup).2, ?_, ?_, ?_, ?_⟩
  · rw [new_ok htoken hdeviceId hstamp]
    exact buildCommandPacket_ok hjson hfits
  · exact (readUIntBE_withChecksum hlaws hheader (by decide)).trans hread
  · exact congrArg Nat.cast ((readUIntBE_withChecksum hlaws hheader (by decide)).trans hread')
  · rw [List.length_append, hlength, readUIntBE_eq, slice_append (by rw [hlength]; decide), ← readUIntBE_eq,
      readUIntBE_withChecksum hlaws hheader (by decide), hread'']
  · refine (checksum_of_parse hparse ?_).2
    rw [List.length_append, hlength]
    exact Nat.lt_add_of_pos_right (List.length_pos_iff.mpr (encrypt_ne_nil hlaws))

section Sample

def sampleToken : Bytes := (List.range 16).map Nat.toUInt8

def sampleKey : Bytes :=
  [0x1A, 0xC1, 0xEF, 0x01, 0xE9, 0x6C, 0xAF, 0x1B, 0xE0, 0xD3, 0x29, 0x33, 0x1A, 0x4F, 0xC2, 0xA8]

def sampleIV : Bytes :=
  [0x9A, 0xE5, 0x38, 0x3E, 0x3C, 0x6E, 0x06, 0x06, 0xC1, 0x5D, 0xA7, 0x84, 0x7F, 0xCD, 0x1D, 0x42]

def sampleEncrypted : Bytes :=
  [0x4A, 0x0C, 0xF9, 0x72, 0x98, 0x14, 0xB7, 0xE6, 0xED, 0x0B, 0x51, 0x78, 0x56, 0x97, 0x67, 0xF4,
   0x98, 0xF9, 0xEF, 0xFB, 0x9A, 0x85, 0x03, 0xC8, 0x3C, 0xC1, 0x79, 0x78, 0xD5, 0x9D, 0x9D, 0xE4,
   0x46, 0x1B, 0xE5, 0xC9, 0x90, 0x3B, 0xCE, 0x0D, 0xF5, 0xAA, 0x8C, 0xC1, 0x43, 0xB4, 0x43, 0x5B]

def sampleDigest : Bytes :=
  [0x81, 0x75, 0xF8, 0xFD, 0x5A, 0xEE, 0x4D, 0x8D, 0xA9, 0x1C, 0xF7, 0x94, 0xF6, 0x40, 0xD7, 0x45]

def samplePayload : JsonObject where
  entries := [(utf16 "method", .string (utf16 "get_prop"))]
  isJson := rfl
  nodup := List.nodup_singleton _

def samplePlaintext : Bytes := encode (Value.object (injectId 1700000000 samplePayload.entries)).text

def pad (data : Bytes) : Bytes :=
  let n := 16 - data.length % 16
  data ++ List.replicate n n.toUInt8

def unpad (data : Bytes) : Bytes := data.take (data.length - (data.getLastD 0).toNat)

/-- A runtime that agrees with MD5 and AES-128-CBC on one packet, and elsewhere only pads. -/
def sampleRuntime : PacketRuntime where
  md5 data :=
    if data = sampleToken then sampleKey
    else if data = sampleKey ++ sampleToken then sampleIV
    else if data = (commandHeader 1234 52460 80).take 16 ++ sampleToken ++ sampleEncrypted then sampleDigest
    else List.replicate 16 0
  cipher key iv data :=
    if key = sampleKey ∧ iv = sampleIV ∧ data = samplePlaintext then sampleEncrypted else pad data
  decipher key iv data :=
    .ok (if key = sampleKey ∧ iv = sampleIV ∧ data = sampleEncrypted then samplePlaintext else unpad data)
  decode data := ((String.fromUTF8? ⟨data.toArray⟩).map utf16).getD []
  syntaxError _ := utf16 "Unexpected token"
  rangeError _ _ := utf16 "The value of \"value\" is out of range."
  stringifyError := utf16 "Converting circular structure to JSON"

theorem getLastD_pad (data : Bytes) : ((pad data).getLastD 0).toNat = 16 - data.length % 16 := by
  have hlast : (pad data).getLastD 0 = (16 - data.length % 16).toUInt8 := by
    rw [pad, List.getLastD_eq_getLast?, List.getLast?_append, List.getLast?_replicate, if_neg (by omega)]
    rfl
  rw [hlast, Nat.toUInt8_eq, UInt8.toNat_ofNat']
  omega

theorem unpad_pad (data : Bytes) : unpad (pad data) = data := by
  have hlength : (pad data).length = data.length + (16 - data.length % 16) := by
    rw [pad, List.length_append, List.length_replicate]
  rw [unpad, getLastD_pad, hlength, Nat.add_sub_cancel]
  exact List.take_left

theorem sampleRuntime_lawful : sampleRuntime.Lawful where
  length_md5 data := by
    simp only [sampleRuntime]
    split_ifs
    · rfl
    · rfl
    · rfl
    · rfl
  decipher_cipher key iv data _ _ := by
    have hpad : pad data ≠ sampleEncrypted := by
      intro heq
      have hlast := getLastD_pad data
      rw [heq, show (sampleEncrypted.getLastD 0).toNat = 0x5B by decide] at hlast
      omega
    simp only [sampleRuntime]
    by_cases h : key = sampleKey ∧ iv = sampleIV ∧ data = samplePlaintext
    · rw [if_pos h, if_pos ⟨h.1, h.2.1, rfl⟩, h.2.2]
    · rw [if_neg h, if_neg fun hsample => hpad hsample.2.2, unpad_pad]
  length_cipher key iv data := by
    simp only [sampleRuntime]
    split_ifs with h
    · rw [h.2.2]
      decide +kernel
    · rw [pad, List.length_append, List.length_replicate]
      omega
  decode_bytesOf text := by
    have hdecode : String.fromUTF8? text.toUTF8 = some text := dif_pos text.isValidUTF8
    exact congrArg (fun text => (text.map utf16).getD []) hdecode

theorem packet_roundTrip_sample : ∃ msg packet json,
    ((OutgoingPacket.new sampleRuntime 1700000000
        { token := some sampleToken, payload := some samplePayload.entries, deviceId := some 1234,
          stamp := some 52460 }).bind fun packet => packet.raw sampleRuntime) = .ok msg ∧
      parseAndDecrypt sampleRuntime.toRuntime sampleToken msg = .ok packet ∧
      packet.json sampleRuntime.toRuntime = .ok (some json) ∧
      json.get (utf16 "method") = some (.string (utf16 "get_prop")) ∧
      json.get ID = some (.number (utf16 "1700000000")) ∧
      packet.deviceId = 1234 ∧ packet.stamp = 52460 ∧ readUIntBE msg 2 2 = msg.length := by
  obtain ⟨⟨msg, packet, json, hraw, hparse, hjson, -, hget, hid, hdeviceId, hstamp, hlength, -⟩, -⟩ :=
    @packet_roundTrip sampleRuntime sampleRuntime_lawful sampleToken rfl 1234 52460 (by decide) (by decide)
      samplePayload 1700000000 (by decide +kernel)
  exact ⟨msg, packet, json, hraw, hparse, hjson, hget _ List.mem_cons_self, hid ID (by decide), hdeviceId, hstamp,
    hlength⟩

end Sample

end HomelabApps.MiotDevice
