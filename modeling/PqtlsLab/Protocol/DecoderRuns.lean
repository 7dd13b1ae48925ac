import PqtlsLab.Protocol.FrameStream

/-!
# Arbitrary call sequences on a decoder

A decoder is driven by `feed` and `nextFrame` in any order and with any chunk
boundaries, also after calls that threw. Whatever the sequence, the bytes fed so
far are the frames of the payloads returned so far followed by the unread
remainder, and each call does what the front of that remainder says.
-/

namespace PqtlsLab.Framing

/-- A call that the owner of a decoder can make. -/
inductive Call where
  | feed (data : Bytes)
  | nextFrame

/-- What a call returned. -/
inductive CallResult where
  | fed
  | nothing
  | returned (payload : Bytes)
  | threw (e : Thrown)

namespace Decoder

/-- One call. The decoder is also there after a call that threw. -/
def call (d : Decoder) : Call → Decoder × CallResult
  | .feed data =>
    match d.feed data with
    | (d', .ok ()) => (d', .fed)
    | (d', .error e) => (d', .threw e)
  | .nextFrame =>
    match d.nextFrame with
    | (d', .ok none) => (d', .nothing)
    | (d', .ok (some payload)) => (d', .returned payload)
    | (d', .error e) => (d', .threw e)

/-- A sequence of calls with all their results. -/
def run (d : Decoder) : List Call → Decoder × List CallResult
  | [] => (d, [])
  | c :: cs =>
    let (d', r) := d.call c
    let (d'', rs) := d'.run cs
    (d'', r :: rs)

end Decoder

/-- The bytes a call feeds. -/
def Call.bytes : Call → Bytes
  | .feed data => data
  | .nextFrame => []

/-- The concatenation of all bytes fed, those of calls that threw included. -/
def fedBytes (calls : List Call) : Bytes := calls.flatMap Call.bytes

/-- The payload a call returned, if it returned one. -/
def CallResult.payload? : CallResult → Option Bytes
  | .returned payload => some payload
  | _ => none

/-- The payloads returned, in order. -/
def payloads (results : List CallResult) : List Bytes := results.filterMap CallResult.payload?

/-- The payloads returned by a call and by those after it. -/
@[simp] theorem payloads_cons (r : CallResult) (rs : List CallResult) :
    payloads (r :: rs) = r.payload?.toList ++ payloads rs := by
  simp only [payloads, List.filterMap_cons]
  cases r.payload? <;> rfl

/-- The payloads returned by two sequences of calls. -/
@[simp] theorem payloads_append (rs rs' : List CallResult) :
    payloads (rs ++ rs') = payloads rs ++ payloads rs' := by
  simp [payloads]

/-- The call threw. -/
def CallResult.Threw (r : CallResult) : Prop := ∃ e, r = .threw e

namespace Decoder

/-- What one call does to the stream: it appends the bytes fed and cuts off the
frame returned, if any; the returned payload is a legal one. -/
theorem call_stream (d : Decoder) (c : Call) :
    (d.call c).1.maxFrameSize = d.maxFrameSize ∧
    (∀ p ∈ (d.call c).2.payload?, Legal d.maxFrameSize p) ∧
    d.remainder ++ c.bytes =
      ((d.call c).2.payload?.toList).flatMap frame ++ (d.call c).1.remainder := by
  cases c with
  | feed data =>
    obtain ⟨hrem, hmax, hres⟩ := d.feed_spec data
    have hcall : (d.call (.feed data)).1 = (d.feed data).1 ∧
        (d.call (.feed data)).2.payload? = none := by
      simp only [call]
      rcases d.feed data with ⟨d', _ | _⟩ <;> exact ⟨rfl, rfl⟩
    simp [hcall.1, hcall.2, hrem, hmax, Call.bytes]
  | nextFrame =>
    have hspec := d.nextFrame_spec
    simp only [call, Call.bytes, List.append_nil]
    cases hfront : front d.maxFrameSize d.remainder with
    | incomplete =>
      rw [hfront] at hspec
      simp [hspec, CallResult.payload?]
    | illegal e =>
      rw [hfront] at hspec
      simp [hspec, CallResult.payload?]
    | complete payload rest =>
      rw [hfront] at hspec
      obtain ⟨d', hd', hrem, hmax⟩ := hspec
      obtain ⟨hlegal, hstream⟩ := (front_eq_complete_iff d.maxFrameSize_bounds.2).mp hfront
      simp [hd', CallResult.payload?, hrem, hmax, hlegal, hstream]

/-- What a sequence of calls does to the stream. -/
theorem run_stream (d : Decoder) (calls : List Call) :
    (d.run calls).1.maxFrameSize = d.maxFrameSize ∧
    (∀ p ∈ payloads (d.run calls).2, Legal d.maxFrameSize p) ∧
    d.remainder ++ fedBytes calls =
      (payloads (d.run calls).2).flatMap frame ++ (d.run calls).1.remainder := by
  induction calls generalizing d with
  | nil => simp [run, payloads, fedBytes]
  | cons c cs ih =>
    obtain ⟨hmax, hlegal, hstream⟩ := d.call_stream c
    obtain ⟨ihmax, ihlegal, ihstream⟩ := ih (d.call c).1
    have hpayloads : payloads (d.run (c :: cs)).2 =
        (d.call c).2.payload?.toList ++ payloads ((d.call c).1.run cs).2 := by
      simp [run]
    refine ⟨by simp [run, ihmax, hmax], ?_, ?_⟩
    · intro p hp
      rw [hpayloads, List.mem_append] at hp
      rcases hp with hp | hp
      · exact hlegal p (by simpa using hp)
      · rw [← hmax]
        exact ihlegal p hp
    · rw [hpayloads, List.flatMap_append]
      calc d.remainder ++ fedBytes (c :: cs)
          = (d.remainder ++ c.bytes) ++ fedBytes cs := by simp [fedBytes]
        _ = ((d.call c).2.payload?.toList).flatMap frame ++
              ((d.call c).1.remainder ++ fedBytes cs) := by rw [hstream, List.append_assoc]
        _ = _ := by rw [ihstream, List.append_assoc]; rfl

/-- A call throws exactly when the remainder, with the bytes it feeds, starts with an
illegal header. -/
theorem call_threw_iff (d : Decoder) (c : Call) :
    (d.call c).2.Threw ↔ StartsIllegal d.maxFrameSize (d.remainder ++ c.bytes) := by
  rw [← front_eq_illegal_iff]
  cases c with
  | feed data =>
    obtain ⟨-, -, hres⟩ := d.feed_spec data
    simp only [call, Call.bytes, CallResult.Threw]
    rcases hfeed : d.feed data with ⟨d', r⟩
    rw [hfeed] at hres
    cases hfront : front d.maxFrameSize (d.remainder ++ data) <;> simp_all
  | nextFrame =>
    have hspec := d.nextFrame_spec
    simp only [call, Call.bytes, List.append_nil, CallResult.Threw]
    cases hfront : front d.maxFrameSize d.remainder with
    | incomplete =>
      rw [hfront] at hspec
      simp [hspec]
    | illegal e =>
      rw [hfront] at hspec
      simp [hspec]
    | complete payload rest =>
      rw [hfront] at hspec
      obtain ⟨d', hd', -⟩ := hspec
      simp [hd']

/-- A call that threw leaves the illegal header at the front of the remainder. -/
theorem startsIllegal_of_threw {d : Decoder} {c : Call} (h : (d.call c).2.Threw) :
    StartsIllegal (d.call c).1.maxFrameSize (d.call c).1.remainder := by
  obtain ⟨hmax, -, hstream⟩ := d.call_stream c
  obtain ⟨e, he⟩ := h
  have hillegal := (d.call_threw_iff c).mp ⟨e, he⟩
  rw [hstream, he] at hillegal
  rw [hmax]
  simpa [CallResult.payload?] using hillegal

/-- An illegal header at the front stays there, and every later call throws. -/
theorem run_threw_of_startsIllegal {d : Decoder}
    (h : StartsIllegal d.maxFrameSize d.remainder) (calls : List Call) :
    ∀ r ∈ (d.run calls).2, r.Threw := by
  induction calls generalizing d with
  | nil => simp [run]
  | cons c cs ih =>
    obtain ⟨b₀, b₁, b₂, b₃, hheader, hbad⟩ := h
    have hthrew : (d.call c).2.Threw := (d.call_threw_iff c).mpr
      ⟨b₀, b₁, b₂, b₃, hheader.trans (List.prefix_append _ _), hbad⟩
    intro r hr
    simp only [run, List.mem_cons] at hr
    rcases hr with rfl | hr
    · exact hthrew
    · exact ih (startsIllegal_of_threw hthrew) r hr

/-- An illegal header at the front is still there after any calls. -/
theorem startsIllegal_run {d : Decoder} (h : StartsIllegal d.maxFrameSize d.remainder)
    (calls : List Call) :
    StartsIllegal (d.run calls).1.maxFrameSize (d.run calls).1.remainder := by
  induction calls generalizing d with
  | nil => exact h
  | cons c cs ih =>
    have hthrew := run_threw_of_startsIllegal h [c] (d.call c).2 (by simp [run])
    exact ih (startsIllegal_of_threw hthrew)

/-- Once a call has thrown, the remainder starts with an illegal header from then on. -/
theorem startsIllegal_of_run_threw {d : Decoder} {calls : List Call} {r : CallResult}
    (hr : r ∈ (d.run calls).2) (hthrew : r.Threw) :
    StartsIllegal (d.run calls).1.maxFrameSize (d.run calls).1.remainder := by
  induction calls generalizing d with
  | nil => simp [run] at hr
  | cons c cs ih =>
    simp only [run, List.mem_cons] at hr
    rcases hr with rfl | hr
    · exact startsIllegal_run (startsIllegal_of_threw hthrew) cs
    · exact ih hr

/-- Once a call has thrown, every later call of the sequence throws. -/
theorem run_threw_persists (d : Decoder) (calls : List Call) {i j : ℕ} (hij : i < j)
    {ri rj : CallResult} (hi : (d.run calls).2[i]? = some ri) (hthrew : ri.Threw)
    (hj : (d.run calls).2[j]? = some rj) : rj.Threw := by
  induction calls generalizing d i j with
  | nil => simp [run] at hi
  | cons c cs ih =>
    cases j with
    | zero => omega
    | succ j =>
      simp only [run, List.getElem?_cons_succ] at hi hj
      cases i with
      | zero =>
        simp only [List.getElem?_cons_zero, Option.some.injEq] at hi
        subst hi
        exact run_threw_of_startsIllegal (startsIllegal_of_threw hthrew) cs rj
          (List.mem_of_getElem? hj)
      | succ i =>
        simp only [List.getElem?_cons_succ] at hi
        exact ih (d.call c).1 (by omega) hi hj

/-- Two sequences of calls, one after the other. -/
theorem run_append (d : Decoder) (first second : List Call) :
    d.run (first ++ second) =
      (((d.run first).1.run second).1, (d.run first).2 ++ ((d.run first).1.run second).2) := by
  induction first generalizing d with
  | nil => rfl
  | cons c cs ih => simp only [List.cons_append, run, ih]

/-- The three outcomes of `nextFrame`, each with the front that causes it. -/
theorem nextFrame_iff (d : Decoder) :
    (∀ p, d.nextFrame.2 = .ok (some p) ↔ StartsWithFrame d.maxFrameSize d.remainder p) ∧
    (d.nextFrame.2 = .ok none ↔ Incomplete d.maxFrameSize d.remainder) ∧
    ((∃ e, d.nextFrame.2 = .error e) ↔ StartsIllegal d.maxFrameSize d.remainder) := by
  have hspec := d.nextFrame_spec
  have hframe (p : Bytes) : StartsWithFrame d.maxFrameSize d.remainder p ↔
      ∃ rest, front d.maxFrameSize d.remainder = .complete p rest := by
    simp only [front_eq_complete_iff d.maxFrameSize_bounds.2]
    constructor
    · rintro ⟨hlegal, rest, hrest⟩
      exact ⟨rest, hlegal, hrest.symm⟩
    · rintro ⟨rest, hlegal, hrest⟩
      exact ⟨hlegal, rest, hrest.symm⟩
  simp only [hframe, ← front_eq_illegal_iff, ← front_eq_incomplete_iff]
  cases hfront : front d.maxFrameSize d.remainder with
  | incomplete =>
    rw [hfront] at hspec
    simp [hspec]
  | illegal e =>
    rw [hfront] at hspec
    simp [hspec]
  | complete payload rest =>
    rw [hfront] at hspec
    obtain ⟨d', hd', -⟩ := hspec
    simp [hd', eq_comm]

/-- A decoder without unread bytes has nothing to return, however often it is asked. -/
theorem payloads_run_replicate_of_empty {d : Decoder} (hrem : d.remainder = []) (n : ℕ) :
    payloads (d.run (List.replicate n .nextFrame)).2 = [] := by
  induction n with
  | zero => rfl
  | succ n ih =>
    have hspec := d.nextFrame_spec
    have hfront : front d.maxFrameSize d.remainder = .incomplete := by
      rw [hrem]
      rfl
    rw [hfront] at hspec
    simp [List.replicate_succ, run, call, hspec, CallResult.payload?, ih]

/-- A remainder made of legal frames is handed out frame by frame. -/
theorem payloads_run_replicate {d : Decoder} {ps : List Bytes}
    (hlegal : ∀ p ∈ ps, Legal d.maxFrameSize p) (hrem : d.remainder = ps.flatMap frame)
    {n : ℕ} (hn : ps.length ≤ n) :
    payloads (d.run (List.replicate n .nextFrame)).2 = ps := by
  induction ps generalizing d n with
  | nil => exact payloads_run_replicate_of_empty hrem n
  | cons p ps ih =>
    obtain ⟨n, rfl⟩ : ∃ k, n = k + 1 := ⟨n - 1, by simp only [List.length_cons] at hn; omega⟩
    have hfront : front d.maxFrameSize d.remainder = .complete p (ps.flatMap frame) := by
      rw [front_eq_complete_iff d.maxFrameSize_bounds.2]
      exact ⟨hlegal p (by simp), by simpa using hrem⟩
    have hspec := d.nextFrame_spec
    rw [hfront] at hspec
    obtain ⟨d', hd', hrem', hmax'⟩ := hspec
    have hrest := ih (d := d') (fun q hq => hmax' ▸ hlegal q (by simp [hq])) hrem'
      (Nat.le_of_succ_le_succ hn)
    simp [List.replicate_succ, run, call, hd', CallResult.payload?, hrest]

/-- If the bytes fed are those of legal frames, then no call throws and the payloads come out
in order, all of them once enough calls have been made. -/
theorem run_of_frames {maxFrameSize : ℕ}
    (hmax : 1 ≤ maxFrameSize ∧ maxFrameSize ≤ kAbsoluteMaxFrameSize) {calls : List Call}
    {ps : List Bytes} (hps : ∀ p ∈ ps, Legal maxFrameSize p)
    (hframes : fedBytes calls = ps.flatMap frame) :
    (∀ r ∈ ((fresh maxFrameSize hmax).run calls).2, ¬ r.Threw) ∧
      payloads ((fresh maxFrameSize hmax).run calls).2 <+: ps ∧
      payloads ((fresh maxFrameSize hmax).run
        (calls ++ List.replicate ps.length .nextFrame)).2 = ps := by
  obtain ⟨hdmax, hlegal, hstream⟩ := (fresh maxFrameSize hmax).run_stream calls
  have hcode := @frame_prefixCode maxFrameSize (Nat.lt_of_le_of_lt hmax.2 (by decide))
  rw [fresh_remainder, List.nil_append, hframes] at hstream
  obtain ⟨zs, rfl, hrem⟩ := hcode.eq_append_of_flatMap hlegal hps hstream.symm
  have hzs : ∀ p ∈ zs, Legal ((fresh maxFrameSize hmax).run calls).1.maxFrameSize p := by
    intro p hp
    rw [hdmax]
    exact hps p (by simp [hp])
  refine ⟨?_, List.prefix_append _ _, ?_⟩
  · intro r hr hthrew
    have hillegal := startsIllegal_of_run_threw hr hthrew
    rw [← front_eq_illegal_iff] at hillegal
    obtain ⟨e, he⟩ := hillegal
    cases zs with
    | nil =>
      rw [hrem] at he
      cases he
    | cons z zs =>
      have hcomplete : front ((fresh maxFrameSize hmax).run calls).1.maxFrameSize
          ((fresh maxFrameSize hmax).run calls).1.remainder = .complete z (zs.flatMap frame) := by
        rw [front_eq_complete_iff ((fresh maxFrameSize hmax).run calls).1.maxFrameSize_bounds.2]
        exact ⟨hzs z (by simp), by simpa using hrem⟩
      rw [he] at hcomplete
      cases hcomplete
  · rw [run_append, payloads_append]
    have hrest := payloads_run_replicate hzs hrem
      (n := (payloads ((fresh maxFrameSize hmax).run calls).2 ++ zs).length) (by simp)
    rw [hrest]

end Decoder

/-- **The decoder refines the frame format.** For every limit the constructor accepts
and every sequence of `feed` and `nextFrame` calls on a fresh decoder: the bytes fed
are the encodings of the payloads returned followed by the unread remainder; the next
call of either kind returns, asks for more or throws exactly as the front of the
remainder says; and a call that threw is followed only by calls that throw, until
`reset` makes the decoder fresh again. In particular, when the bytes fed are the
encodings of a list of payloads, however they were cut, no call throws and the
payloads come out in order, all of them once enough calls have been made. -/
theorem decoder_refines_frame_format (maxFrameSize : ℕ)
    (hmax : 1 ≤ maxFrameSize ∧ maxFrameSize ≤ kAbsoluteMaxFrameSize) (calls : List Call) :
    let d := ((Decoder.fresh maxFrameSize hmax).run calls).1
    let results := ((Decoder.fresh maxFrameSize hmax).run calls).2
    (∀ p ∈ payloads results, encode p maxFrameSize = .ok (frame p)) ∧
    fedBytes calls = (payloads results).flatMap frame ++ d.remainder ∧
    d.consumed ≤ d.buffer.length ∧
    (∀ p, d.nextFrame.2 = .ok (some p) ↔ StartsWithFrame maxFrameSize d.remainder p) ∧
    (d.nextFrame.2 = .ok none ↔ Incomplete maxFrameSize d.remainder) ∧
    ((∃ e, d.nextFrame.2 = .error e) ↔ StartsIllegal maxFrameSize d.remainder) ∧
    (∀ data, (∃ e, (d.feed data).2 = .error e) ↔
      StartsIllegal maxFrameSize (d.remainder ++ data)) ∧
    (∀ (i j : ℕ) (ri rj : CallResult), i < j → results[i]? = some ri → ri.Threw →
      results[j]? = some rj → rj.Threw) ∧
    d.reset = Decoder.fresh maxFrameSize hmax ∧
    (∀ ps : List Bytes, (∀ p ∈ ps, Legal maxFrameSize p) → fedBytes calls = ps.flatMap frame →
      (∀ r ∈ results, ¬ r.Threw) ∧ payloads results <+: ps ∧
      payloads ((Decoder.fresh maxFrameSize hmax).run
        (calls ++ List.replicate ps.length .nextFrame)).2 = ps) := by
  intro d results
  obtain ⟨hdmax, hlegal, hstream⟩ := (Decoder.fresh maxFrameSize hmax).run_stream calls
  have hdmax' : d.maxFrameSize = maxFrameSize := hdmax
  have hfed : fedBytes calls = (payloads results).flatMap frame ++ d.remainder := by
    simpa using hstream
  obtain ⟨hreturns, hnothing, hthrows⟩ := d.nextFrame_iff
  rw [hdmax'] at hreturns hnothing hthrows
  refine ⟨?_, hfed, d.consumed_le, hreturns, hnothing, hthrows, ?_, ?_, ?_, ?_⟩
  · intro p hp
    exact (encode_eq_ok_iff hmax.2).mpr ⟨hlegal p hp, rfl⟩
  · intro data
    have hcall := d.call_threw_iff (.feed data)
    rw [hdmax'] at hcall
    refine Iff.trans ?_ hcall
    simp only [Decoder.call, CallResult.Threw]
    rcases d.feed data with ⟨d', _ | _⟩ <;> simp
  · intro i j ri rj hij hi hthrew hj
    exact Decoder.run_threw_persists _ calls hij hi hthrew hj
  · simp only [Decoder.reset, Decoder.fresh, Decoder.mk.injEq, and_self, and_true]
    exact hdmax'
  · intro ps hps hframes
    exact Decoder.run_of_frames hmax hps hframes

/-- The refinement at a two-byte payload that arrives in two pieces. -/
theorem decoder_refines_frame_format_split :
    let calls := [.feed [0, 0, 0, 2, 7], .nextFrame, .feed [8], .nextFrame]
    let run := (Decoder.fresh 16 (by decide)).run calls
    fedBytes calls = (payloads run.2).flatMap frame ++ run.1.remainder ∧
      payloads run.2 = [[7, 8]] :=
  ⟨(decoder_refines_frame_format 16 (by decide) _).2.1, by decide⟩

end PqtlsLab.Framing
