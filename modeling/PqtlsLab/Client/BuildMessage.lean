import PqtlsLab.Policy.Config
import PqtlsLab.Protocol.RoundTrip
import PqtlsLab.Validator.RecordRead

/-!
# The message of the command line

`build_message` takes a document from `--message` or from a file, adds what is missing of the
envelope and hands the text of the result to the parser that the wire uses. What this comes to is
said here without the detour through a text: the parser sees the document of the user, with the
protocol version added, and adds the rest itself.
-/

namespace PqtlsLab

open Json (nodesAt)

/-- What `build_message` depends on besides the configuration. -/
structure MessageSource where
  lib : JsonLibrary
  /-- The content of a file that can be opened. -/
  readFile : Bytes → Option Bytes
  /-- For the identifier and the time of the message. -/
  label : Label
  /-- For what `Message::parse` adds. -/
  parseLabel : Label

/-- `if (!doc.contains(key)) doc[key] = value`. -/
def JsonValue.ensure (doc : JsonValue) (key : Bytes) (value : JsonValue) : JsonValue :=
  if (doc.get? key).isNone then doc.set key value else doc

namespace MessageSource

/-- The text of the message, which is empty if there is none. -/
def body (source : MessageSource) (config : ClientConfig) : Except Thrown Bytes :=
  if config.messageFile.isEmpty then .ok config.message
  else
    match source.readFile config.messageFile with
    | some content => .ok content
    | none => .error (configurationError
        (ascii "cannot read the message file '" ++ config.messageFile ++ ascii "'"))

/-- The document that is handed to the parser. -/
def envelope (label : Label) (doc : JsonValue) : JsonValue :=
  doc.ensure (ascii "protocol_version") (.int kProtocolVersion)
    |>.ensure (ascii "message_id") (.string (generateUuidV4 label.entropy))
    |>.ensure (ascii "timestamp") (.string (iso8601Now label.now))

/-- `build_message`. -/
def buildMessage (source : MessageSource) (config : ClientConfig) : Except Thrown Message := do
  let body ← source.body config
  if body.isEmpty then return Message.makeRequest source.label .ping JsonValue.null
  match source.lib.parse body with
  | .error (.parseError what) =>
    .error (configurationError (ascii "--message is not valid JSON: " ++ what))
  | .error e => .error e.toThrown
  | .ok doc =>
    if !doc.isObject then
      .error (configurationError (ascii "--message must be a JSON object"))
    else
      match source.lib.dump (envelope source.label doc).val with
      | .error e => .error e.toThrown
      | .ok text => Message.parse source.lib source.parseLabel text

end MessageSource

namespace Json

/-- What holds of every member after a new one was added. -/
theorem forall_mem_setMember {P : Bytes × Json → Prop} {key : Bytes} {v : Json}
    {ms : List (Bytes × Json)} (hnew : key ∉ ms.map Prod.fst) :
    (∀ p ∈ setMember key v ms, P p) ↔ P (key, v) ∧ ∀ p ∈ ms, P p := by
  induction ms with
  | nil => simp [setMember]
  | cons m ms ih =>
    obtain ⟨k, w⟩ := m
    simp only [List.map_cons, List.mem_cons, not_or] at hnew
    unfold setMember
    split
    · simp only [List.forall_mem_cons]
    · rw [if_neg hnew.1, List.forall_mem_cons, List.forall_mem_cons, ih hnew.2]
      tauto

/-- A key that is not found is not there. -/
theorem not_mem_keys_of_lookup {key : Bytes} {ms : List (Bytes × Json)}
    (h : ms.lookup key = none) : key ∉ ms.map Prod.fst := by
  intro hmem
  obtain ⟨p, hp, rfl⟩ := List.mem_map.mp hmem
  have hne := List.lookup_eq_none_iff.mp h p hp
  simp at hne

/-- The texts of an object are those of its keys and of its values. -/
theorem textValid_object_iff (ms : List (Bytes × Json)) : (Json.object ms).textValid = true ↔
    ∀ p ∈ ms, Utf8.valid p.1 = true ∧ p.2.textValid = true := by
  rw [textValid]
  induction ms with
  | nil => simp [textValidMembers]
  | cons m ms ih =>
    obtain ⟨k, w⟩ := m
    rw [textValidMembers, Bool.and_eq_true, Bool.and_eq_true, ih, List.forall_mem_cons]

/-- The numbers of an object are those of its values. -/
theorem numbersFinite_object_iff (ms : List (Bytes × Json)) :
    (Json.object ms).numbersFinite = true ↔ ∀ p ∈ ms, p.2.numbersFinite = true := by
  rw [numbersFinite, numbersFiniteMembers_iff, List.forall_mem_map]

/-- The nodes below an object are those of its values. -/
theorem nodesAt_object_eq_nil_iff (n : ℕ) (ms : List (Bytes × Json)) :
    nodesAt (n + 1) (.object ms) = [] ↔ ∀ p ∈ ms, nodesAt n p.2 = [] := by
  rw [nodesAt, children, List.flatMap_eq_nil_iff, List.forall_mem_map]

end Json

namespace JsonValue

/-- An object is made of its members. -/
theorem val_eq_object_of_isObject {j : JsonValue} (h : j.isObject = true) :
    j.val = .object j.members := by
  obtain ⟨tree, hwf⟩ := j
  cases tree with
  | object ms => rfl
  | _ => cases h

/-- Member access in an object after an assignment. -/
theorem get?_set (j : JsonValue) (key k : Bytes) (value : JsonValue) :
    (j.set key value).get? k = if k = key then some value else j.get? k := by
  have hget (tree : JsonValue) : tree.val.get? k = tree.members.lookup k := by
    obtain ⟨tree, hwf⟩ := tree
    cases tree <;> rfl
  split
  · rename_i heq
    rw [heq, get?_eq_some_iff, ← heq, hget, members_set, heq, Json.lookup_setMember_self]
  · rename_i hne
    have hsame : (j.set key value).val.get? k = j.val.get? k := by
      rw [hget, hget, members_set, Json.lookup_setMember_of_ne _ _ hne]
    cases hold : j.get? k with
    | none => rw [get?_eq_none_iff, hsame, (get?_eq_none_iff _ _).mp hold]
    | some v => rw [get?_eq_some_iff, hsame, (get?_eq_some_iff _ _ _).mp hold]

/-- A key that is there keeps its value. -/
theorem get?_ensure (doc : JsonValue) (key k : Bytes) (value : JsonValue) :
    (doc.ensure key value).get? k =
      if k = key then some ((doc.get? key).getD value) else doc.get? k := by
  unfold ensure
  cases hget : doc.get? key with
  | none => rw [if_pos Option.isNone_none, get?_set, Option.getD_none]
  | some v =>
    rw [if_neg (by simp), Option.getD_some]
    split
    · rename_i heq
      rw [heq, hget]
    · rfl

/-- What is filled in leaves an object. -/
theorem isObject_ensure {doc : JsonValue} (h : doc.isObject = true) (key : Bytes)
    (value : JsonValue) : (doc.ensure key value).isObject = true := by
  unfold ensure
  split
  · rw [isObject, set_eq_object]
  · exact h

/-- What holds of every member holds after a member was filled in. -/
theorem forall_members_ensure {P : Bytes × Json → Prop} {doc : JsonValue}
    (hobject : doc.isObject = true) {key : Bytes} {value : JsonValue} (hnew : P (key, value.val)) :
    (∀ p ∈ (doc.ensure key value).members, P p) ↔ ∀ p ∈ doc.members, P p := by
  unfold ensure
  split
  · rename_i hnone
    rw [Option.isNone_iff_eq_none, get?_eq_none_iff, val_eq_object_of_isObject hobject] at hnone
    rw [members_set, Json.forall_mem_setMember (Json.not_mem_keys_of_lookup hnone),
      and_iff_right hnew]
  · exact Iff.rfl

end JsonValue

namespace Message

/-- The texts that `Message::parse` accepts. -/
theorem parse_eq_ok_iff {lib : JsonLibrary} {label : Label} {text : Bytes} {m : Message} :
    parse lib label text = .ok m ↔ text ≠ [] ∧ isValidUtf8 text = true ∧
      ∃ doc, lib.parse text = .ok doc ∧ doc.isObject = true ∧ nodesAt 17 doc.val = [] ∧
        ofDocument label doc = .ok m := by
  constructor
  · intro h
    obtain ⟨doc, hparse, hshallow, hdoc⟩ := exists_document_of_parse h
    have hsplit := h
    unfold parse at hsplit
    split at hsplit
    · cases hsplit
    rename_i hnonempty
    split at hsplit
    · cases hsplit
    rename_i hutf8
    simp only [parseDocument, hparse] at hsplit
    split at hsplit
    · cases hsplit
    rename_i hobject
    rw [List.isEmpty_iff] at hnonempty
    exact ⟨hnonempty, not_not.mp hutf8, doc, hparse, not_not.mp hobject, hshallow, hdoc⟩
  · rintro ⟨hnonempty, hutf8, doc, hparse, hobject, hshallow, hdoc⟩
    have hdepth : jsonDepth doc.val 0 ≤ kMaxJsonDepth := by
      by_contra hdeep
      exact (exceedsDepth_iff doc).mp (Nat.lt_of_not_le hdeep) hshallow
    exact parse_of_ofDocument hnonempty hutf8 hparse hobject hdepth hdoc

/-- The checks on a document see six of its fields, and where a label would be drawn it does not
matter whether it was filled in before. -/
theorem ofDocument_congr {label label' : Label} {doc doc' : JsonValue}
    (hsame : ∀ field ∈ [ascii "protocol_version", ascii "type", ascii "status",
      ascii "payload"], doc'.get? field = doc.get? field)
    (hid : doc'.get? (ascii "message_id") = some ((doc.get? (ascii "message_id")).getD
      (.string (generateUuidV4 label.entropy))))
    (htimestamp : doc'.get? (ascii "timestamp") = some ((doc.get? (ascii "timestamp")).getD
      (.string (iso8601Now label.now)))) :
    ofDocument label' doc' = ofDocument label doc := by
  simp only [List.forall_mem_cons, List.not_mem_nil, false_imp_iff, implies_true,
    and_true] at hsame
  obtain ⟨hversion, htype, hstatus, hpayload⟩ := hsame
  have hparseId : parseMessageId label' doc' = parseMessageId label doc := by
    unfold parseMessageId optionalString
    rw [hid]
    cases doc.get? (ascii "message_id") with
    | none =>
      have hlength : ¬ (generateUuidV4 label.entropy).length > 128 := by
        rw [length_generateUuidV4]
        decide
      change (if (generateUuidV4 label.entropy).length > 128 then .error (protocolError
        (ascii "'message_id' is longer than the 128-character limit")) else
        .ok (generateUuidV4 label.entropy)) = Except.ok (generateUuidV4 label.entropy)
      rw [if_neg hlength]
    | some v =>
      dsimp only [Option.getD_some]
      cases requireString v (ascii "'message_id' must be a string") <;> rfl
  have hparseTimestamp : parseTimestamp label' doc' = parseTimestamp label doc := by
    unfold parseTimestamp optionalString
    rw [htimestamp]
    cases doc.get? (ascii "timestamp") with
    | none => rfl
    | some v =>
      dsimp only [Option.getD_some]
      cases requireString v (ascii "'timestamp' must be an ISO-8601 string") <;> rfl
  unfold ofDocument
  rw [hparseId, hparseTimestamp]
  simp only [parseVersion, parseType, parseStatus, parsePayload, mandatoryField, optionalString,
    hversion, htype, hstatus, hpayload]

end Message

namespace MessageSource

open JsonValue (forall_members_ensure isObject_ensure get?_ensure val_eq_object_of_isObject)

/-- The envelope of an object is an object. -/
theorem isObject_envelope (label : Label) {doc : JsonValue} (hobject : doc.isObject = true) :
    (envelope label doc).isObject = true :=
  isObject_ensure (isObject_ensure (isObject_ensure hobject _ _) _ _) _ _

/-- What holds of the members that are filled in holds of every member of the envelope if it does
of every member of the document. -/
theorem forall_members_envelope {P : Bytes × Json → Prop} {label : Label} {doc : JsonValue}
    (hobject : doc.isObject = true)
    (hversion : P (ascii "protocol_version", .int kProtocolVersion.toInt))
    (hid : P (ascii "message_id", .string (generateUuidV4 label.entropy)))
    (htimestamp : P (ascii "timestamp", .string (iso8601Now label.now))) :
    (∀ p ∈ (envelope label doc).members, P p) ↔ ∀ p ∈ doc.members, P p := by
  have hobject₁ := isObject_ensure hobject (ascii "protocol_version") (.int kProtocolVersion)
  have hobject₂ := isObject_ensure hobject₁ (ascii "message_id")
    (.string (generateUuidV4 label.entropy))
  rw [envelope, forall_members_ensure hobject₂ htimestamp, forall_members_ensure hobject₁ hid,
    forall_members_ensure hobject hversion]

/-- What is filled in does not change whether the document nests too deeply, holds text that is
not UTF-8 or numbers that are not finite. -/
theorem envelope_keeps (label : Label) {doc : JsonValue} (hobject : doc.isObject = true) :
    (nodesAt 17 (envelope label doc).val = [] ↔ nodesAt 17 doc.val = []) ∧
      ((envelope label doc).val.textValid = true ↔ doc.val.textValid = true) ∧
      ((envelope label doc).val.numbersFinite = true ↔ doc.val.numbersFinite = true) := by
  rw [val_eq_object_of_isObject hobject,
    val_eq_object_of_isObject (isObject_envelope label hobject),
    Json.nodesAt_object_eq_nil_iff, Json.nodesAt_object_eq_nil_iff, Json.textValid_object_iff,
    Json.textValid_object_iff, Json.numbersFinite_object_iff, Json.numbersFinite_object_iff]
  refine ⟨forall_members_envelope hobject rfl rfl rfl, ?_,
    forall_members_envelope hobject rfl rfl rfl⟩
  have hplain {key s : Bytes} (hkey : Utf8.valid key = true) (hs : Json.Plain s) :
      Utf8.valid key = true ∧ (Json.string s).textValid = true :=
    ⟨hkey, hs.valid⟩
  have hkeys : Utf8.valid (ascii "message_id") = true ∧
      Utf8.valid (ascii "timestamp") = true := by
    decide
  exact forall_members_envelope hobject (by decide) (hplain hkeys.1 (plain_generateUuidV4 _))
    (hplain hkeys.2 (plain_iso8601Now _))

/-- The checks on the envelope are those on the document with the version added. -/
theorem ofDocument_envelope (label label' : Label) (doc : JsonValue) :
    Message.ofDocument label' (envelope label doc) = Message.ofDocument label
      (doc.ensure (ascii "protocol_version") (.int kProtocolVersion)) := by
  apply Message.ofDocument_congr
  · intro field hfield
    simp only [List.mem_cons, List.not_mem_nil, or_false] at hfield
    rcases hfield with rfl | rfl | rfl | rfl <;>
      rw [envelope, get?_ensure, if_neg (by decide), get?_ensure, if_neg (by decide)]
  · rw [envelope, get?_ensure, if_neg (by decide), get?_ensure, if_pos rfl]
  · rw [envelope, get?_ensure, if_pos rfl, get?_ensure _ (ascii "message_id"),
      if_neg (by decide)]

/-- The text of a document that the reader delivered is written, and the parser of the wire makes
of it what the checks make of the document. -/
theorem parse_envelope {lib : JsonLibrary} (hutf8 : lib.ReadsUtf8) (hfinite : lib.ReadsFinite)
    (hwrites : lib.WritesUtf8) {body : Bytes} {doc : JsonValue} (hparse : lib.parse body = .ok doc)
    (hobject : doc.isObject = true) {label : Label}
    (hinverts : lib.InvertsDump (envelope label doc)) (label' : Label) :
    ∃ text, lib.dump (envelope label doc).val = .ok text ∧ ∀ m,
      Message.parse lib label' text = .ok m ↔ nodesAt 17 doc.val = [] ∧ Message.ofDocument label
        (doc.ensure (ascii "protocol_version") (.int kProtocolVersion)) = .ok m := by
  obtain ⟨hnodes, htext, hnumbers⟩ := envelope_keeps label hobject
  have hvalid := htext.mpr (hutf8 body doc hparse)
  have hdump : lib.dump (envelope label doc).val =
      .ok ((envelope label doc).val.render lib.floatText) := by
    rw [JsonLibrary.dump, if_pos hvalid]
  refine ⟨_, hdump, fun m => ?_⟩
  have hback := hinverts hvalid (hnumbers.mpr (hfinite body doc hparse)) _ hdump
  have hnonempty : (envelope label doc).val.render lib.floatText ≠ [] := by
    rw [val_eq_object_of_isObject (isObject_envelope label hobject), Json.render]
    simp
  have hread : isValidUtf8 ((envelope label doc).val.render lib.floatText) = true := by
    rw [isValidUtf8_eq_valid]
    exact Json.valid_render hwrites _ hvalid
  rw [Message.parse_eq_ok_iff, ← ofDocument_envelope label label' doc, ← hnodes]
  constructor
  · rintro ⟨-, -, doc', hdoc', -, hshallow, hm⟩
    rw [hback, Except.ok.injEq] at hdoc'
    subst hdoc'
    exact ⟨hshallow, hm⟩
  · rintro ⟨hshallow, hm⟩
    exact ⟨hnonempty, hread, _, hback, isObject_envelope label hobject, hshallow, hm⟩

/-- The message without a text. -/
theorem onWire_ping (label : Label) :
    (Message.makeRequest label .ping JsonValue.null).OnWire where
  version := rfl
  length_messageId := by
    rw [Message.makeRequest, length_generateUuidV4]
    decide
  text := (Message.textValid_toJson_iff _).mpr
    ⟨(plain_generateUuidV4 _).valid, (plain_iso8601Now _).valid, nofun, nofun⟩
  numbers := (Message.numbersFinite_toJson_iff _).mpr nofun
  object := rfl
  depth := (Message.nodesAt_toJson_eq_nil_iff _).mpr nofun
  device := nofun

/-- Every message that is built is one that travels. -/
theorem onWire_of_buildMessage {source : MessageSource} (hutf8 : source.lib.ReadsUtf8)
    (hfinite : source.lib.ReadsFinite) {config : ClientConfig} {m : Message}
    (h : source.buildMessage config = .ok m) : m.OnWire := by
  rw [buildMessage, bind_eq_ok_iff] at h
  obtain ⟨body, -, h⟩ := h
  split at h
  · cases h
    exact onWire_ping source.label
  · split at h
    · cases h
    · cases h
    · split at h
      · cases h
      · split at h
        · cases h
        · exact Message.onWire_of_parse hutf8 hfinite h

/-- A document that passes the checks names its version. -/
theorem exists_version_of_ofDocument {label : Label} {doc : JsonValue} {m : Message}
    (h : Message.ofDocument label doc = .ok m) :
    ∃ version, doc.get? (ascii "protocol_version") = some version := by
  rw [Message.ofDocument, bind_eq_ok_iff] at h
  obtain ⟨version, hversion, -⟩ := h
  rw [Message.parseVersion, bind_eq_ok_iff] at hversion
  obtain ⟨value, hvalue, -⟩ := hversion
  have hget := Message.mandatoryField_eq_ok hvalue
  exact ⟨value, (JsonValue.get?_eq_some_iff _ _ _).mpr hget⟩

/-- Which messages are built from a text that is not empty. -/
theorem buildMessage_eq_ok_iff {source : MessageSource} (hutf8 : source.lib.ReadsUtf8)
    (hfinite : source.lib.ReadsFinite) (hwrites : source.lib.WritesUtf8)
    {config : ClientConfig} {body : Bytes} (hbody : source.body config = .ok body)
    (hnonempty : body ≠ []) (hinverts : ∀ doc, source.lib.parse body = .ok doc →
      source.lib.InvertsDump (envelope source.label doc)) (m : Message) :
    source.buildMessage config = .ok m ↔
      ∃ doc : JsonValue, source.lib.parse body = .ok doc ∧ doc.isObject = true ∧
        nodesAt 17 doc.val = [] ∧ Message.ofDocument source.label
          (doc.ensure (ascii "protocol_version") (.int kProtocolVersion)) = .ok m := by
  have hempty : ¬ body.isEmpty = true := fun h => hnonempty (List.isEmpty_iff.mp h)
  have hbuild : source.buildMessage config = match source.lib.parse body with
      | .error (.parseError what) =>
        .error (configurationError (ascii "--message is not valid JSON: " ++ what))
      | .error e => .error e.toThrown
      | .ok doc =>
        if !doc.isObject then
          .error (configurationError (ascii "--message must be a JSON object"))
        else
          match source.lib.dump (envelope source.label doc).val with
          | .error e => .error e.toThrown
          | .ok text => Message.parse source.lib source.parseLabel text := by
    rw [buildMessage, hbody]
    exact if_neg hempty
  rw [hbuild]
  cases hparse : source.lib.parse body with
  | error e =>
    have hnone : ¬ ∃ doc : JsonValue, Except.error e = Except.ok doc ∧ doc.isObject = true ∧
        nodesAt 17 doc.val = [] ∧ Message.ofDocument source.label
          (doc.ensure (ascii "protocol_version") (.int kProtocolVersion)) = .ok m := by
      rintro ⟨doc, hdoc, -⟩
      cases hdoc
    rw [iff_false_right hnone]
    cases e <;> exact fun h => nomatch h
  | ok doc =>
    simp only [Except.ok.injEq, exists_eq_left']
    by_cases hobject : doc.isObject = true
    · obtain ⟨text, hdump, hwire⟩ := parse_envelope hutf8 hfinite hwrites hparse hobject
        (hinverts doc hparse) source.parseLabel
      simp only [hobject, hdump, hwire, Bool.not_true, Bool.false_eq_true, if_false, true_and]
    · simp [hobject]

/-- A version that is there stays. -/
theorem ensure_of_get? {doc v value : JsonValue} {key : Bytes} (h : doc.get? key = some v) :
    doc.ensure key value = doc := by
  rw [JsonValue.ensure, h]
  rfl

/-- The command line takes what the wire takes, and documents without a version besides: a text is
taken exactly if the reader delivers an object within the limit on nesting that passes the checks
of `Message::parse` once the version is filled in. Of these texts the wire takes those that are
UTF-8 and name the version. Every message built this way travels, and the server reads it back as
it was. -/
theorem message_of_command_line {source : MessageSource} (hutf8 : source.lib.ReadsUtf8)
    (hfinite : source.lib.ReadsFinite) (hwrites : source.lib.WritesUtf8)
    (config : ClientConfig) (m : Message) :
    (source.buildMessage config = .ok m → m.OnWire ∧ (source.lib.InvertsDump m.toJson →
      ∃ text, m.serialize source.lib = .ok text ∧
        ∀ label, Message.parse source.lib label text = .ok m)) ∧
      ∀ body, source.body config = .ok body → body ≠ [] →
        (∀ doc, source.lib.parse body = .ok doc →
          source.lib.InvertsDump (envelope source.label doc)) →
        (source.buildMessage config = .ok m ↔
          ∃ doc : JsonValue, source.lib.parse body = .ok doc ∧ doc.isObject = true ∧
            nodesAt 17 doc.val = [] ∧ Message.ofDocument source.label
              (doc.ensure (ascii "protocol_version") (.int kProtocolVersion)) = .ok m) ∧
        (Message.parse source.lib source.label body = .ok m ↔
          source.buildMessage config = .ok m ∧ isValidUtf8 body = true ∧
            ∃ doc, source.lib.parse body = .ok doc ∧
              (doc.get? (ascii "protocol_version")).isSome = true) := by
  refine ⟨?_, fun body hbody hnonempty hinverts => ?_⟩
  · intro hbuild
    have hwire : m.OnWire := onWire_of_buildMessage hutf8 hfinite hbuild
    exact ⟨hwire, hwire.parse_serialize_eq hwrites⟩
  have hbuild := buildMessage_eq_ok_iff hutf8 hfinite hwrites hbody hnonempty hinverts m
  refine ⟨hbuild, ?_⟩
  rw [hbuild, Message.parse_eq_ok_iff]
  constructor
  · rintro ⟨-, hread, doc, hparse, hobject, hshallow, hm⟩
    obtain ⟨version, hversion⟩ := exists_version_of_ofDocument hm
    refine ⟨⟨doc, hparse, hobject, hshallow, ?_⟩, hread, doc, hparse, ?_⟩
    · rw [ensure_of_get? hversion]
      exact hm
    · rw [hversion]
      rfl
  · rintro ⟨⟨doc, hparse, hobject, hshallow, hm⟩, hread, doc', hparse', hversion⟩
    rw [hparse, Except.ok.injEq] at hparse'
    subst hparse'
    obtain ⟨version, hversion⟩ := Option.isSome_iff_exists.mp hversion
    rw [ensure_of_get? hversion] at hm
    exact ⟨hnonempty, hread, doc, hparse, hobject, hshallow, hm⟩

/-- A library that knows one object, with and without the envelope around it. -/
def sampleLibrary (doc : JsonValue) : JsonLibrary :=
  .ofTable [(doc.val.render fun _ => ascii "0.0", .ok doc),
    ((envelope Label.sample doc).val.render fun _ => ascii "0.0", .ok (envelope Label.sample doc))]

/-- A request for an echo, without its envelope. -/
def echoDocument : JsonValue :=
  (JsonValue.null.set (ascii "type") (.string (ascii "echo"))).set (ascii "payload")
    (JsonValue.null.set (ascii "text") (.string (ascii "hello")))

/-- The request for an echo is given on the command line. -/
def echoSource : MessageSource where
  lib := sampleLibrary echoDocument
  readFile _ := none
  label := Label.sample
  parseLabel := Label.sample

/-- What is built from the request. -/
def echoMessage : Message where
  protocolVersion := kProtocolVersion
  messageId := generateUuidV4 Label.sample.entropy
  type := .echo
  timestamp := iso8601Now Label.sample.now
  status := none
  payload := JsonValue.null.set (ascii "text") (.string (ascii "hello"))

/-- The request is taken on the command line and not on the wire. -/
theorem message_of_command_line_echo :
    echoSource.buildMessage { message := echoDocument.val.render fun _ => ascii "0.0" } =
        .ok echoMessage ∧ echoMessage.OnWire ∧
      Message.parse echoSource.lib echoSource.label
        (echoDocument.val.render fun _ => ascii "0.0") ≠ .ok echoMessage := by
  have hknown : ∀ text j, echoSource.lib.parse text = .ok j →
      j = echoDocument ∨ j = envelope Label.sample echoDocument := by
    intro text j h
    have hmem := JsonLibrary.mem_of_parse_ofTable h
    simp only [List.mem_cons, List.not_mem_nil, or_false, Prod.mk.injEq, Except.ok.injEq] at hmem
    exact hmem.imp And.right And.right
  have hutf8 : echoSource.lib.ReadsUtf8 := by
    intro text j h
    rcases hknown text j h with rfl | rfl <;> decide +kernel
  have hfinite : echoSource.lib.ReadsFinite := by
    intro text j h
    rcases hknown text j h with rfl | rfl <;> decide +kernel
  have hwrites : echoSource.lib.WritesUtf8 := by
    intro bits _
    have hzero : Utf8.valid (ascii "0.0") = true := by decide
    exact hzero
  have hparse : echoSource.lib.parse (echoDocument.val.render fun _ => ascii "0.0") =
      .ok echoDocument := by
    simp [echoSource, sampleLibrary, JsonLibrary.ofTable]
  have hinverts : ∀ doc, echoSource.lib.parse (echoDocument.val.render fun _ => ascii "0.0") =
      .ok doc → echoSource.lib.InvertsDump (envelope echoSource.label doc) := by
    intro doc hdoc
    rw [hparse, Except.ok.injEq] at hdoc
    subst hdoc
    intro htext _ text hdump
    rw [JsonLibrary.dump, if_pos htext, Except.ok.injEq] at hdump
    subst hdump
    have hother : ((envelope Label.sample echoDocument).val.render (fun _ => ascii "0.0") ==
        echoDocument.val.render fun _ => ascii "0.0") = false := by decide +kernel
    simp [echoSource, sampleLibrary, JsonLibrary.ofTable, List.lookup_cons, hother]
  obtain ⟨htravels, htaken⟩ := message_of_command_line hutf8 hfinite hwrites
    { message := echoDocument.val.render fun _ => ascii "0.0" } echoMessage
  obtain ⟨hbuild, hwire⟩ := htaken _ rfl (by decide +kernel) hinverts
  have hbuilt := hbuild.mpr ⟨echoDocument, hparse, rfl, by decide +kernel, rfl⟩
  refine ⟨hbuilt, (htravels hbuilt).1, fun h => ?_⟩
  obtain ⟨-, -, doc, hdoc, hversion⟩ := hwire.mp h
  rw [hparse, Except.ok.injEq] at hdoc
  subst hdoc
  cases hversion

end MessageSource

end PqtlsLab
