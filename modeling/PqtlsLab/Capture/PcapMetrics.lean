import Mathlib.Algebra.Ring.Int.Defs
import PqtlsLab.Foundation.PythonText

/-!
# The metrics of a packet capture

`pcap_metrics.py` has `tshark` print some fields of every packet, one packet on each line, and goes
through the packets once, with one record of metrics for every TCP stream. Packets of different
streams may interleave in any way. What comes out for a stream is compared here with a description
in terms of the packets of this stream alone.
-/

namespace PqtlsLab

namespace Capture

open Python

/-- What Python makes of the text of a number; `none` stands for a `ValueError`. -/
structure Numerals where
  /-- `int`. -/
  int : Bytes → Option ℤ
  /-- `float`. -/
  float : Bytes → Option UInt64

/-- `FlowMetrics`, with the defaults of its declaration. -/
structure FlowMetrics where
  streamId : Bytes
  clientHelloBytes : Option ℤ := none
  serverHelloBytes : Option ℤ := none
  handshakeSegments : ℕ := 0
  handshakeBytes : ℤ := 0
  retransmissions : ℕ := 0
  ipFragments : ℕ := 0
  synTime : Option UInt64 := none
  firstApplicationTime : Option UInt64 := none
  tlsVersion : Bytes := []
  negotiatedGroup : Bytes := []

/-- `TSHARK_FIELDS`. -/
def tsharkFields : List Bytes :=
  [ascii "frame.number", ascii "frame.time_epoch", ascii "frame.len", ascii "tcp.stream",
    ascii "tcp.flags.syn", ascii "tcp.flags.ack", ascii "tcp.len",
    ascii "tcp.analysis.retransmission", ascii "ip.flags.mf", ascii "ip.frag_offset",
    ascii "tls.record.content_type", ascii "tls.record.length", ascii "tls.handshake.type",
    ascii "tls.handshake.length", ascii "tls.record.version",
    ascii "tls.handshake.extensions.supported_group"]

/-- The `dict` that is made of a line. The names are all different. -/
abbrev Row := List (Bytes × Bytes)

/-- `row.get(name, "")`. No test of a missing field tells it from an empty one. -/
def Row.get (row : Row) (name : Bytes) : Bytes := (row.lookup name).getD []

/-- The `dict` of the values on a line. -/
def rowOf (values : List Bytes) : Row :=
  tsharkFields.zip (values ++ List.replicate (tsharkFields.length - values.length) [])

/-- The rows that `run_tshark` makes of what `tshark` prints. -/
def rowsOf (stdout : Bytes) : List Row :=
  (splitlines stdout).map fun line => rowOf (line.splitOn 0x09)

variable (numerals : Numerals)

/-- `to_int`. -/
def toInt (value : Bytes) : ℤ := (numerals.int value).getD 0

namespace Row

/-- `timestamp`. -/
def timestamp (row : Row) : Option UInt64 := numerals.float (row.get (ascii "frame.time_epoch"))

/-- `record_length`. -/
def recordLength (row : Row) : ℤ := toInt numerals (row.get (ascii "tls.record.length"))

/-- The packet opens a connection. -/
def isSyn (row : Row) : Bool :=
  row.get (ascii "tcp.flags.syn") == ascii "1" && row.get (ascii "tcp.flags.ack") != ascii "1"

/-- The packet has been sent before. -/
def isRetransmission (row : Row) : Bool := !(row.get (ascii "tcp.analysis.retransmission")).isEmpty

/-- The packet is a fragment. -/
def isFragment (row : Row) : Bool :=
  row.get (ascii "ip.flags.mf") == ascii "1" ||
    0 < toInt numerals (row.get (ascii "ip.frag_offset"))

/-- The content type of the record is `handshake`. -/
def isHandshake (row : Row) : Bool := row.get (ascii "tls.record.content_type") == ascii "22"

/-- The content type of the record is `application_data`. -/
def isApplicationData (row : Row) : Bool := row.get (ascii "tls.record.content_type") == ascii "23"

/-- The handshake message is `HANDSHAKE_CLIENT_HELLO`. -/
def isClientHello (row : Row) : Bool := row.get (ascii "tls.handshake.type") == ascii "1"

/-- The handshake message is `HANDSHAKE_SERVER_HELLO`. -/
def isServerHello (row : Row) : Bool := row.get (ascii "tls.handshake.type") == ascii "2"

/-- `stream`. -/
def stream (row : Row) : Bytes := row.get (ascii "tcp.stream")

/-- `version`. -/
def version (row : Row) : Bytes := row.get (ascii "tls.record.version")

/-- `group`. -/
def group (row : Row) : Bytes := row.get (ascii "tls.handshake.extensions.supported_group")

end Row

namespace FlowMetrics

/-- The time of the first packet that opens the connection. -/
def markSyn (row : Row) (flow : FlowMetrics) : FlowMetrics :=
  if row.isSyn && flow.synTime.isNone && (row.timestamp numerals).isSome then
    { flow with synTime := row.timestamp numerals }
  else flow

/-- The number of packets that have been sent before. -/
def countRetransmission (row : Row) (flow : FlowMetrics) : FlowMetrics :=
  if row.isRetransmission then { flow with retransmissions := flow.retransmissions + 1 } else flow

/-- The number of fragments. -/
def countFragment (row : Row) (flow : FlowMetrics) : FlowMetrics :=
  if row.isFragment numerals then { flow with ipFragments := flow.ipFragments + 1 } else flow

/-- The assignments for a record of content type `handshake`. -/
def handshake (row : Row) (flow : FlowMetrics) : FlowMetrics :=
  if row.isHandshake then
    let flow := { flow with
      handshakeSegments := flow.handshakeSegments + 1
      handshakeBytes := flow.handshakeBytes + toInt numerals (row.get (ascii "frame.len")) }
    if row.isClientHello && flow.clientHelloBytes.isNone then
      { flow with clientHelloBytes := some (row.recordLength numerals + 5) }
    else if row.isServerHello && flow.serverHelloBytes.isNone then
      let flow := { flow with serverHelloBytes := some (row.recordLength numerals + 5) }
      if row.group.isEmpty then flow else { flow with negotiatedGroup := row.group }
    else flow
  else flow

/-- The time of the first record of application data. -/
def markApplicationData (row : Row) (flow : FlowMetrics) : FlowMetrics :=
  if row.isApplicationData && flow.firstApplicationTime.isNone then
    { flow with firstApplicationTime := row.timestamp numerals }
  else flow

/-- The first version. -/
def markVersion (row : Row) (flow : FlowMetrics) : FlowMetrics :=
  if !row.version.isEmpty && flow.tlsVersion.isEmpty then { flow with tlsVersion := row.version }
  else flow

/-- The body of the loop, for the flow of the packet. -/
def update (flow : FlowMetrics) (row : Row) : FlowMetrics :=
  flow.markSyn numerals row |>.countRetransmission row |>.countFragment numerals row
    |>.handshake numerals row |>.markApplicationData numerals row |>.markVersion row

end FlowMetrics

/-- The first note of `analyse`. -/
def truncatedNote : Bytes :=
  ascii "some flows have no ClientHello. The capture may have started after the " ++
    ascii "handshake, or the snaplen may have truncated it (capture with --snaplen 0)."

/-- The last note of `analyse`. -/
def lowerBoundNote : Bytes :=
  ascii "Under TLS 1.3 the encrypted portion of the handshake is carried in records with " ++
    ascii "content type 23, the same as application data. time_to_first_application_byte_ms is " ++
    ascii "therefore a lower bound, not an exact application-layer figure."

/-- The body of the loop of `analyse`. -/
def analyseRow (flows : Dictionary Bytes FlowMetrics) (row : Row) : Dictionary Bytes FlowMetrics :=
  if row.stream.isEmpty then flows
  else
    flows.alter row.stream fun flow =>
      (flow.getD { streamId := row.stream }).update numerals row

/-- `analyse`. -/
def analyse (rows : List Row) : List FlowMetrics × List Bytes :=
  let flows := (rows.foldl (analyseRow numerals) .empty).entries.map Prod.snd
  (flows, (if flows.any fun flow => flow.clientHelloBytes.isNone then [truncatedNote] else []) ++
    [lowerBoundNote])

section Specification

/-- The metrics of a stream whose packets are known. -/
def flowOf (stream : Bytes) (rows : List Row) : FlowMetrics :=
  let clientHello (row : Row) := row.isHandshake && row.isClientHello
  let serverHello (row : Row) := row.isHandshake && row.isServerHello
  { streamId := stream
    clientHelloBytes := (rows.find? clientHello).map fun row => row.recordLength numerals + 5
    serverHelloBytes := (rows.find? serverHello).map fun row => row.recordLength numerals + 5
    handshakeSegments := rows.countP Row.isHandshake
    handshakeBytes := ((rows.filter Row.isHandshake).map fun row =>
      toInt numerals (row.get (ascii "frame.len"))).sum
    retransmissions := rows.countP Row.isRetransmission
    ipFragments := rows.countP (Row.isFragment numerals)
    synTime := (rows.filter Row.isSyn).findSome? (Row.timestamp numerals)
    firstApplicationTime := (rows.filter Row.isApplicationData).findSome? (Row.timestamp numerals)
    tlsVersion := ((rows.map Row.version).find? fun version => !version.isEmpty).getD []
    negotiatedGroup := ((rows.find? serverHello).map Row.group).getD [] }

/-- A ClientHello is no ServerHello. -/
theorem Row.isServerHello_of_isClientHello {row : Row} (h : row.isClientHello = true) :
    row.isServerHello = false := by
  rw [isClientHello, beq_iff_eq] at h
  rw [isServerHello, h]
  rfl

/-- The first value of a list that is longer by one element. -/
theorem findSome?_filter_concat {α β : Type*} (kind : α → Bool) (value : α → Option β)
    (l : List α) (a : α) :
    ((l ++ [a]).filter kind).findSome? value =
      ((l.filter kind).findSome? value).or (if kind a then value a else none) := by
  rw [List.filter_append, List.findSome?_append]
  congr 1
  cases h : kind a <;> simp [h]

/-- What is made of the first element of some kind, in a list that is longer by one element. -/
theorem map_find?_concat {α β : Type*} (kind : α → Bool) (value : α → β) (l : List α) (a : α) :
    ((l ++ [a]).find? kind).map value =
      ((l.find? kind).map value).or (if kind a then some (value a) else none) := by
  rw [List.find?_append]
  cases l.find? kind <;> cases h : kind a <;> simp [h]

variable {numerals} {stream : Bytes} {rows : List Row} {row : Row}

/-- The time of the SYN changes if there was none. -/
theorem FlowMetrics.markSyn_eq (flow : FlowMetrics) :
    flow.markSyn numerals row = { flow with
      synTime := flow.synTime.or (if row.isSyn then row.timestamp numerals else none) } := by
  obtain ⟨_, _, _, _, _, _, _, synTime, _, _, _⟩ := flow
  unfold markSyn
  cases synTime <;> cases row.isSyn <;> cases row.timestamp numerals <;> rfl

/-- A packet that has been sent before is counted. -/
theorem FlowMetrics.countRetransmission_eq (flow : FlowMetrics) :
    flow.countRetransmission row = { flow with
      retransmissions := flow.retransmissions + if row.isRetransmission then 1 else 0 } := by
  unfold countRetransmission
  cases row.isRetransmission <;> rfl

/-- A fragment is counted. -/
theorem FlowMetrics.countFragment_eq (flow : FlowMetrics) :
    flow.countFragment numerals row = { flow with
      ipFragments := flow.ipFragments + if row.isFragment numerals then 1 else 0 } := by
  unfold countFragment
  cases row.isFragment numerals <;> rfl

/-- The time of the application data changes if there was none. -/
theorem FlowMetrics.markApplicationData_eq (flow : FlowMetrics) :
    flow.markApplicationData numerals row = { flow with
      firstApplicationTime := flow.firstApplicationTime.or
        (if row.isApplicationData then row.timestamp numerals else none) } := by
  obtain ⟨_, _, _, _, _, _, _, _, firstApplicationTime, _, _⟩ := flow
  unfold markApplicationData
  cases firstApplicationTime <;> cases row.isApplicationData <;> rfl

/-- The version changes if there was none. -/
theorem FlowMetrics.markVersion_eq (flow : FlowMetrics) :
    flow.markVersion row = { flow with
      tlsVersion := if flow.tlsVersion.isEmpty then row.version else flow.tlsVersion } := by
  obtain ⟨_, _, _, _, _, _, _, _, _, tlsVersion, _⟩ := flow
  unfold markVersion
  cases tlsVersion with
  | nil => cases hversion : row.version <;> rfl
  | cons b version => cases row.version.isEmpty <;> rfl

/-- The sizes of the two messages change if there were none, and the group with the second. -/
theorem FlowMetrics.handshake_eq (flow : FlowMetrics) :
    flow.handshake numerals row = { flow with
      handshakeSegments := flow.handshakeSegments + if row.isHandshake then 1 else 0
      handshakeBytes := flow.handshakeBytes +
        if row.isHandshake then toInt numerals (row.get (ascii "frame.len")) else 0
      clientHelloBytes := flow.clientHelloBytes.or
        (if row.isHandshake && row.isClientHello then some (row.recordLength numerals + 5)
          else none)
      serverHelloBytes := flow.serverHelloBytes.or
        (if row.isHandshake && row.isServerHello then some (row.recordLength numerals + 5)
          else none)
      negotiatedGroup :=
        if row.isHandshake && row.isServerHello && flow.serverHelloBytes.isNone &&
          !row.group.isEmpty then row.group else flow.negotiatedGroup } := by
  obtain ⟨_, clientHelloBytes, serverHelloBytes, _, _, _, _, _, _, _, _⟩ := flow
  unfold handshake
  cases row.isHandshake with
  | false => simp
  | true =>
    cases hclient : row.isClientHello with
    | true =>
      have hserver := Row.isServerHello_of_isClientHello hclient
      cases clientHelloBytes <;> simp [hserver]
    | false =>
      cases row.isServerHello <;> cases serverHelloBytes <;> cases row.group.isEmpty <;> simp

/-- A packet changes the metrics of its stream as if they were described anew. -/
theorem update_flowOf :
    (flowOf numerals stream rows).update numerals row =
      flowOf numerals stream (rows ++ [row]) := by
  rw [FlowMetrics.update, FlowMetrics.markSyn_eq, FlowMetrics.countRetransmission_eq,
    FlowMetrics.countFragment_eq, FlowMetrics.handshake_eq, FlowMetrics.markApplicationData_eq,
    FlowMetrics.markVersion_eq]
  simp only [flowOf, FlowMetrics.mk.injEq, List.countP_append, List.countP_singleton,
    map_find?_concat, findSome?_filter_concat, true_and]
  refine ⟨?_, ?_, ?_⟩
  · cases h : row.isHandshake <;> simp [List.filter_append, h]
  · rw [List.map_append, List.find?_append]
    rcases Option.eq_none_or_eq_some ((rows.map Row.version).find? fun version => !version.isEmpty)
      with hnone | ⟨version, hfirst⟩
    · cases h : row.version <;> simp [hnone, h]
    · have hne := List.find?_some hfirst
      simp only [Bool.not_eq_true'] at hne
      simp [hfirst, hne]
  · rcases Option.eq_none_or_eq_some (rows.find? fun row => row.isHandshake && row.isServerHello)
      with hnone | ⟨first, hfirst⟩
    · cases h : row.isHandshake && row.isServerHello with
      | false => simp [hnone]
      | true => cases row.group <;> simp [hnone]
    · simp [hfirst]

/-- The metrics of a stream are made of its packets. -/
theorem foldl_update (h : ∀ row ∈ rows, row.stream = stream) :
    rows.foldl (fun (flow : Option FlowMetrics) row =>
      some ((flow.getD { streamId := row.stream }).update numerals row)) none =
        if rows.isEmpty then none else some (flowOf numerals stream rows) := by
  induction rows using List.reverseRecOn with
  | nil => rfl
  | append_singleton rows row ih =>
    obtain rfl := h row (by simp)
    rw [List.foldl_append, ih fun other hother => h other (by simp [hother]), List.foldl_cons,
      List.foldl_nil, ← update_flowOf]
    cases rows with
    | nil => rfl
    | cons first rows => simp

variable (numerals)

/-- The streams in the order of their first packets. -/
def streams (rows : List Row) : List Bytes :=
  ((rows.map Row.stream).filter fun stream => !stream.isEmpty).eraseDups

/-- The loop of `analyse` collects the metrics of every stream. -/
theorem entries_analyse (rows : List Row) :
    (rows.foldl (analyseRow numerals) .empty).entries = (streams rows).map fun stream =>
      (stream, flowOf numerals stream (rows.filter fun row => row.stream = stream)) := by
  let step (row : Row) (flow : Option FlowMetrics) : FlowMetrics :=
    (flow.getD { streamId := row.stream }).update numerals row
  let named (row : Row) : Bool := !row.stream.isEmpty
  have hfold (flows : Dictionary Bytes FlowMetrics) : rows.foldl (analyseRow numerals) flows =
      (rows.filter named).foldl (fun d row => d.alter row.stream (step row)) flows := by
    induction rows generalizing flows with
    | nil => rfl
    | cons row rows ih =>
      rw [List.foldl_cons, ih, analyseRow]
      by_cases hempty : row.stream.isEmpty = true
      · rw [if_pos hempty, List.filter_cons_of_neg (by simp [named, hempty])]
      · rw [if_neg hempty, List.filter_cons_of_pos (by simp [named, hempty])]
        rfl
  have hkeys : (Dictionary.accumulate Row.stream step (rows.filter named)).keys = streams rows := by
    rw [Dictionary.keys_accumulate, streams, List.filter_map]
    rfl
  rw [hfold, ← hkeys]
  refine Dictionary.entries_eq_map _ fun stream hstream => ?_
  obtain ⟨row, hrow, rfl⟩ := (Dictionary.mem_keys_accumulate _ _ _ _).mp hstream
  have hnamed := (List.mem_filter.mp hrow).2
  have hfilter : (rows.filter named).filter (fun other => other.stream = row.stream) =
      rows.filter fun other => other.stream = row.stream := by
    rw [List.filter_filter]
    refine List.filter_congr fun other _ => ?_
    by_cases heq : other.stream = row.stream
    · simpa [heq, named] using hnamed
    · simp [heq]
  have hne : (rows.filter fun other => other.stream = row.stream).isEmpty = false := by
    rw [List.isEmpty_eq_false_iff]
    exact List.ne_nil_of_mem (List.mem_filter.mpr ⟨(List.mem_filter.mp hrow).1, by simp⟩)
  have hvalue := Dictionary.get?_accumulate Row.stream step (rows.filter named) row.stream
  rw [hfilter, foldl_update fun other hother => of_decide_eq_true (List.mem_filter.mp hother).2,
    hne] at hvalue
  exact hvalue

/-- A stream is listed if there is a packet of it. -/
theorem mem_streams_iff {rows : List Row} {stream : Bytes} :
    stream ∈ streams rows ↔ stream ≠ [] ∧ (rows.filter fun row => row.stream = stream) ≠ [] := by
  simp only [streams, List.mem_eraseDups, List.mem_filter, List.mem_map, Bool.not_eq_true',
    List.isEmpty_eq_false_iff, ne_eq, List.filter_eq_nil_iff, decide_eq_true_eq, not_forall,
    not_not, exists_prop]
  exact And.comm

/-- No stream is listed twice. -/
theorem nodup_streams (rows : List Row) : (streams rows).Nodup := by
  have hnodup := (rows.foldl (analyseRow ⟨fun _ => none, fun _ => none⟩) .empty).nodup
  rw [entries_analyse, List.map_map] at hnodup
  exact List.map_id' (streams rows) ▸ hnodup

/-- The two notes are different. -/
theorem truncatedNote_ne_lowerBoundNote : truncatedNote ≠ lowerBoundNote := by
  intro heq
  have hhead : truncatedNote.head? = some 0x73 := rfl
  rw [heq] at hhead
  have hother : lowerBoundNote.head? = some 0x55 := rfl
  rw [hother] at hhead
  cases hhead

/-- The flows are those of the streams. -/
theorem flows_analyse (rows : List Row) :
    (analyse numerals rows).1 = (streams rows).map fun stream =>
      flowOf numerals stream (rows.filter fun row => row.stream = stream) := by
  rw [analyse, entries_analyse, List.map_map]
  rfl

/-- The notes are made of the flows. -/
theorem notes_analyse (rows : List Row) :
    (analyse numerals rows).2 =
      (if (analyse numerals rows).1.any fun flow => flow.clientHelloBytes.isNone
        then [truncatedNote] else []) ++ [lowerBoundNote] := rfl

/-- The flows are those of the streams in the order of their first packets, each with the metrics of
its own packets, wherever these are among the packets of other streams. It is noted that a
ClientHello is missing exactly if there is a stream without one. -/
theorem flows_of_capture (rows : List Row) :
    (analyse numerals rows).1 = (streams rows).map (fun stream =>
      flowOf numerals stream (rows.filter fun row => row.stream = stream)) ∧
    (truncatedNote ∈ (analyse numerals rows).2 ↔ ∃ stream ∈ streams rows,
      ∀ row ∈ rows, row.stream = stream → (row.isHandshake && row.isClientHello) = false) := by
  refine ⟨flows_analyse numerals rows, ?_⟩
  have hnote : truncatedNote ∈ (analyse numerals rows).2 ↔
      ∃ flow ∈ (analyse numerals rows).1, flow.clientHelloBytes = none := by
    rw [notes_analyse]
    simp [truncatedNote_ne_lowerBoundNote, Option.isNone_iff_eq_none]
  rw [hnote, flows_analyse]
  simp only [List.mem_map, exists_exists_and_eq_and, flowOf, Option.map_eq_none_iff,
    List.find?_eq_none, List.mem_filter, decide_eq_true_eq, and_imp, Bool.not_eq_true]

end Specification

section Text

/-- What `tshark` prints for a packet. -/
def printed (values : List Bytes) : Bytes := [0x09].intercalate values ++ [0x0A]

/-- There is a value, and the values are on one line and can be told apart. -/
def Printable (values : List Bytes) : Prop :=
  values ≠ [] ∧ ∀ value ∈ values, ∀ b ∈ value, 0x20 ≤ b ∧ b < 0x80

instance (values : List Bytes) : Decidable (Printable values) :=
  inferInstanceAs (Decidable (_ ∧ _))

/-- A packet is printed on one line. -/
theorem unbroken_intercalate {values : List Bytes}
    (h : ∀ value ∈ values, ∀ b ∈ value, 0x20 ≤ b ∧ b < 0x80) :
    Unbroken ([0x09].intercalate values) := by
  induction values with
  | nil => intro b hb; cases hb
  | cons first rest ih =>
    have hfirst : Unbroken first := fun b hb => .inl (h first (by simp) b hb)
    have hrest := ih fun value hvalue => h value (by simp [hvalue])
    cases rest with
    | nil => rwa [List.intercalate_singleton]
    | cons second rest =>
      rw [List.intercalate_cons_cons]
      intro b hb
      rcases List.mem_append.mp hb with hb | hb
      · rcases List.mem_append.mp hb with hb | hb
        · exact hfirst b hb
        · exact .inr (List.mem_singleton.mp hb)
      · exact hrest b hb

/-- Every packet is read as it has been printed. -/
theorem rowsOf_printed {packets : List (List Bytes)} (h : ∀ values ∈ packets, Printable values) :
    rowsOf (packets.flatMap printed) = packets.map rowOf := by
  have hlines : splitlines (packets.flatMap printed) =
      packets.map fun values => [0x09].intercalate values := by
    induction packets with
    | nil => rfl
    | cons values packets ih =>
      have hline := unbroken_intercalate (h values (by simp)).2
      rw [List.flatMap_cons, printed, List.append_assoc, List.singleton_append,
        splitlines_append hline, ih fun other hother => h other (by simp [hother]), List.map_cons]
  rw [rowsOf, hlines, List.map_map]
  refine List.map_congr_left fun values hvalues => ?_
  obtain ⟨hne, hgraphic⟩ := h values hvalues
  rw [Function.comp_apply, List.splitOn_intercalate _ _ hne]
  intro value hvalue htab
  exact absurd (hgraphic value hvalue _ htab).1 (by decide)

/-- If two captures have the same packets of each stream, in the same order, but the streams
interleave in different ways, then the metrics of the flows are the same, up to the order of the
flows, and so are the notes. -/
theorem analyse_of_interleaving {packets packets' : List (List Bytes)}
    (hprintable : ∀ values ∈ packets, Printable values)
    (hprintable' : ∀ values ∈ packets', Printable values)
    (hsame : ∀ stream ≠ [], (packets.filter fun values => (rowOf values).stream = stream) =
      packets'.filter fun values => (rowOf values).stream = stream) :
    (analyse numerals (rowsOf (packets.flatMap printed))).1.Perm
        (analyse numerals (rowsOf (packets'.flatMap printed))).1 ∧
      (analyse numerals (rowsOf (packets.flatMap printed))).2 =
        (analyse numerals (rowsOf (packets'.flatMap printed))).2 := by
  rw [rowsOf_printed hprintable, rowsOf_printed hprintable']
  have hrows : ∀ stream ≠ [], ((packets.map rowOf).filter fun row => row.stream = stream) =
      (packets'.map rowOf).filter fun row => row.stream = stream := by
    intro stream hne
    rw [List.filter_map, List.filter_map]
    exact congrArg (List.map rowOf) (hsame stream hne)
  have hstreams : (streams (packets.map rowOf)).Perm (streams (packets'.map rowOf)) := by
    rw [List.perm_ext_iff_of_nodup (nodup_streams _) (nodup_streams _)]
    intro stream
    rw [mem_streams_iff, mem_streams_iff]
    exact and_congr_right fun hne => by rw [hrows stream hne]
  have hflows : (analyse numerals (packets.map rowOf)).1.Perm
      (analyse numerals (packets'.map rowOf)).1 := by
    rw [flows_analyse, flows_analyse]
    have hmap := List.map_congr_left fun stream (hstream : stream ∈ streams (packets.map rowOf)) =>
      congrArg (flowOf numerals stream) (hrows stream (mem_streams_iff.mp hstream).1)
    rw [hmap]
    exact hstreams.map _
  refine ⟨hflows, ?_⟩
  rw [notes_analyse, notes_analyse, hflows.any_eq]

/-- The values of a packet with a ClientHello in a stream. -/
def clientHelloPacket (number stream : Bytes) : List Bytes :=
  [number, ascii "0.5", ascii "1200", stream, ascii "0", ascii "1", ascii "1146", [], ascii "0",
    ascii "0", ascii "22", ascii "1141", ascii "1", ascii "1137", ascii "0x0301", []]

/-- The numbers that occur in these packets. -/
def Numerals.ofDigits : Numerals where
  int text :=
    if !text.isEmpty && text.all fun b => decide (0x30 ≤ b ∧ b ≤ 0x39) then
      some (text.foldl (fun n b => 10 * n + (b.toNat - 0x30)) 0 : ℕ)
    else none
  float text := if text = ascii "0.5" then some 0x3FE0000000000000 else none

/-- Two streams whose first packets are exchanged. -/
theorem analyse_of_interleaving_hellos :
    let first := clientHelloPacket (ascii "1") (ascii "0")
    let second := clientHelloPacket (ascii "2") (ascii "1")
    (analyse .ofDigits (rowsOf ([first, second].flatMap printed))).1.Perm
      (analyse .ofDigits (rowsOf ([second, first].flatMap printed))).1 := by
  intro first second
  have hprintable : Printable first ∧ Printable second := by decide +kernel
  have hfirst : (rowOf first).stream = ascii "0" := rfl
  have hsecond : (rowOf second).stream = ascii "1" := rfl
  refine (@analyse_of_interleaving .ofDigits [first, second] [second, first] ?_ ?_ ?_).1
  · simp [hprintable]
  · simp [hprintable]
  · intro stream _
    by_cases hstream : ascii "0" = stream
    · subst hstream
      simp [hfirst, hsecond, show ascii "1" ≠ ascii "0" by decide]
    · simp [List.filter_cons, hfirst, hsecond, hstream]

end Text

end Capture

end PqtlsLab
