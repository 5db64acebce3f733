import H2ClientProxy.Equiv.Response
import Mathlib.Data.List.TakeWhile

/-!
# How a response is delivered

* `Response`: the responses of HTTP/2 (`Response.Valid`), and the reports they are made of
  (`Response.reports`).
* `Response.Delivered`: what the client should be told of a response.
* `response_delivered_iff`: the client is told what it should be exactly if the response is
  `Response.Plain`.
* `not_delivered_padded`: it is not if a `DATA` frame is padded.
-/

namespace H2ClientProxy

open Wp Machine

/-! ### Responses -/

/-- A `HEADERS` frame with its fields. -/
structure HeadersFrame where
  fields : List (Bytes × Bytes)
  flags : Flags

/-- A `DATA` frame with its contents, in the pieces that are reported. -/
structure DataFrame where
  chunks : List Bytes
  flags : Flags

/-- The frame that carries `END_STREAM`; `unfinished` while it has not arrived. -/
inductive Ending where
  | unfinished
  | head
  | data (frame : DataFrame)
  | trailers (frame : HeadersFrame)

/-- A response: informational `HEADERS`, the final `HEADERS` with its status, the `DATA` frames
without `END_STREAM`, and the end. -/
structure Response where
  informational : List HeadersFrame
  status : Bytes
  fields : List (Bytes × Bytes)
  flags : Flags
  body : List DataFrame
  ending : Ending

/-- `:status`. -/
def statusName : Bytes := bytes ":status"

/-- The final `HEADERS`. -/
def Response.head (resp : Response) : HeadersFrame :=
  ⟨(statusName, resp.status) :: resp.fields, resp.flags⟩

/-- A field that is no pseudo-header; names and values are free of NULs. -/
def regularField (p : Bytes × Bytes) : Prop :=
  (∀ c, p.1.head? = some c → c ≠ 58) ∧ 0 ∉ p.1 ∧ 0 ∉ p.2

/-- A status of three digits. -/
def statusDigits (status : Bytes) : Prop := status.length = 3 ∧ ∀ c ∈ status, 48 ≤ c ∧ c ≤ 57

/-- What HTTP/2 asks of a response. -/
structure Response.Valid (resp : Response) : Prop where
  informational : ∀ f ∈ resp.informational, isEndHeaders f.flags = true ∧
    isEndStream f.flags = false ∧ ∃ status fields, f.fields = (statusName, status) :: fields ∧
      statusDigits status ∧ status.head? = some 49 ∧ ∀ p ∈ fields, regularField p
  status : statusDigits resp.status ∧ resp.status.head? ≠ some 49
  fields : ∀ p ∈ resp.fields, regularField p
  flags : isEndHeaders resp.flags = true ∧
    (isEndStream resp.flags = true ↔ resp.ending = .head)
  body : ∀ f ∈ resp.body, isEndStream f.flags = false
  ending : match resp.ending with
    | .unfinished => True
    | .head => resp.body = []
    | .data f => isEndStream f.flags = true
    | .trailers f => isEndHeaders f.flags = true ∧ isEndStream f.flags = true ∧
        ∀ p ∈ f.fields, regularField p

/-! ### The reports of a response -/

def HeadersFrame.reports (cat : HeadersCategory) (f : HeadersFrame) : List Report :=
  f.fields.map (fun p => .header cat p.1 p.2) ++ [.frame (.headers f.flags)]

def DataFrame.reports (f : DataFrame) : List Report :=
  f.chunks.map .chunk ++ [.frame (.data f.flags)]

/-- The first `HEADERS` of a stream have the category `response`, the later ones `headers`. -/
def headersReports : HeadersCategory → List HeadersFrame → List Report
  | _, [] => []
  | cat, f :: fs => f.reports cat ++ headersReports .headers fs

def Ending.reports : Ending → List Report
  | .unfinished | .head => []
  | .data f => f.reports
  | .trailers f => f.reports .headers

def Response.reports (resp : Response) : List Report :=
  headersReports .response (resp.informational ++ [resp.head]) ++
    (resp.body.flatMap DataFrame.reports ++ resp.ending.reports)

/-! ### What should be delivered -/

def Ending.chunks : Ending → List Bytes
  | .data f => f.chunks
  | _ => []

/-- All pieces of `DATA`. -/
def Response.chunks (resp : Response) : List Bytes :=
  resp.body.flatMap DataFrame.chunks ++ resp.ending.chunks

/-- A frame with `END_STREAM` was received. -/
def Response.ended (resp : Response) : Bool :=
  match resp.ending with
  | .unfinished => false
  | _ => true

/-- The number that the digits of a status stand for. -/
def statusValue : Bytes → ℤ
  | [a, b, c] => (a.toNat - 48) * 100 + (b.toNat - 48) * 10 + (c.toNat - 48)
  | _ => 0

/-- The header has the final status, and begins with the final fields. -/
def Response.Carried (resp : Response) (hdr : Header) : Prop :=
  hdr.statusCode = statusValue resp.status ∧
    (resp.fields.map fun p => (⟨p.1, p.2⟩ : Field)) <+: hdr.listHeaders

/-- The client is told once of the header, then of each piece of the body in order, then of the end
exactly if the response has ended. -/
structure Response.Delivered (resp : Response) (told : List Told) : Prop where
  order : told.map Prod.fst = .headerComplete :: (resp.chunks.map fun _ => .body) ++
    if resp.ended then [.msgComplete] else []
  header : ∀ t ∈ told, t.1 = .headerComplete → resp.Carried t.2.1
  chunks : (told.filter (·.1 = .body)).map (·.2.2) = resp.chunks

/-- The responses that the code copes with: no informational `HEADERS`, no trailers, no flag on a
`DATA` frame but on the last one, and fields that fit the arrays they are copied to. -/
structure Response.Plain (resp : Response) : Prop where
  informational : resp.informational = []
  trailers : ∀ f, resp.ending ≠ .trailers f
  body : ∀ f ∈ resp.body, f.flags = 0
  fields : ∀ p ∈ resp.fields, p.1.length < 1024 ∧ p.2.length < 4096

/-! ### The events of a list of reports -/

variable {cb : RelayEventcb} {r : RelayId} {s : StreamId} {req : Header} {b : Bytes} {w : World}

/-- The chunk of a report. -/
def Report.chunk? : Report → Option Bytes
  | .chunk data => some data
  | _ => none

/-- The chunks that the client is told of, in order. -/
def bodies (told : List Told) : List Bytes := (told.filter (·.1 = .body)).map (·.2.2)

theorem HeadersFrame.chunks_reports (cat : HeadersCategory) (f : HeadersFrame) :
    (f.reports cat).filterMap Report.chunk? = [] := by
  rw [List.filterMap_eq_nil_iff]
  intro rep hrep
  rcases List.mem_append.mp hrep with hrep | hrep
  · obtain ⟨p, _, rfl⟩ := List.mem_map.mp hrep
    rfl
  · rw [List.mem_singleton.mp hrep]
    rfl

theorem DataFrame.chunks_reports (f : DataFrame) :
    f.reports.filterMap Report.chunk? = f.chunks := by
  have hchunks : (f.chunks.map Report.chunk).filterMap Report.chunk? = f.chunks := by
    rw [List.filterMap_map]
    exact List.filterMap_some
  rw [DataFrame.reports, List.filterMap_append, hchunks]
  exact List.append_nil _

theorem headersReports_chunks (cat : HeadersCategory) (fs : List HeadersFrame) :
    (headersReports cat fs).filterMap Report.chunk? = [] := by
  induction fs generalizing cat with
  | nil => rfl
  | cons f fs ih =>
    rw [headersReports, List.filterMap_append, f.chunks_reports, ih, List.append_nil]

/-- The chunks of a response are the chunks that are reported. -/
theorem Response.chunks_reports (resp : Response) :
    resp.reports.filterMap Report.chunk? = resp.chunks := by
  have hbody : (resp.body.flatMap DataFrame.reports).filterMap Report.chunk? =
      resp.body.flatMap DataFrame.chunks := by
    rw [List.filterMap_flatMap]
    exact List.flatMap_congr fun f _ => f.chunks_reports
  have hend : resp.ending.reports.filterMap Report.chunk? = resp.ending.chunks := by
    cases resp.ending with
    | unfinished => rfl
    | head => rfl
    | data f => exact f.chunks_reports
    | trailers f => exact f.chunks_reports .headers
  rw [Response.reports, List.filterMap_append, headersReports_chunks, List.nil_append,
    List.filterMap_append, hbody, hend, Response.chunks]

theorem EndsLast.append {reps reps' : List Report} (h : ∀ rep ∈ reps, rep.endStream = false)
    (h' : EndsLast reps') : EndsLast (reps ++ reps') := by
  induction reps with
  | nil => exact h'
  | cons rep reps ih =>
    refine ⟨fun hes => ?_, ih fun x hx => h x (by simp [hx])⟩
    rw [h rep (by simp)] at hes
    exact absurd hes (by simp)

theorem HeadersFrame.reports_framed (cat : HeadersCategory) {f : HeadersFrame}
    (hf : isEndHeaders f.flags = true) : ∀ rep ∈ f.reports cat, rep.framed = true := by
  intro rep hrep
  rcases List.mem_append.mp hrep with hrep | hrep
  · obtain ⟨p, _, rfl⟩ := List.mem_map.mp hrep
    rfl
  · rw [List.mem_singleton.mp hrep]
    exact hf

theorem DataFrame.reports_framed (f : DataFrame) : ∀ rep ∈ f.reports, rep.framed = true := by
  intro rep hrep
  rcases List.mem_append.mp hrep with hrep | hrep
  · obtain ⟨p, _, rfl⟩ := List.mem_map.mp hrep
    rfl
  · rw [List.mem_singleton.mp hrep]
    rfl

/-- A response consists of `HEADERS` with complete blocks and of `DATA`. -/
theorem Response.framed {resp : Response} (hv : resp.Valid) :
    ∀ rep ∈ resp.reports, rep.framed = true := by
  have hheaders : ∀ cat fs, (∀ f ∈ fs, isEndHeaders (HeadersFrame.flags f) = true) →
      ∀ rep ∈ headersReports cat fs, rep.framed = true := by
    intro cat fs
    induction fs generalizing cat with
    | nil => exact fun _ rep hrep => absurd hrep (by simp [headersReports])
    | cons f fs ih =>
      intro hfs rep hrep
      rcases List.mem_append.mp hrep with hrep | hrep
      · exact HeadersFrame.reports_framed cat (hfs f (by simp)) rep hrep
      · exact ih .headers (fun f' hf' => hfs f' (by simp [hf'])) rep hrep
  intro rep hrep
  rcases List.mem_append.mp hrep with hrep | hrep
  · refine hheaders _ _ (fun f hf => ?_) rep hrep
    rcases List.mem_append.mp hf with hf | hf
    · exact (hv.informational f hf).1
    · rw [List.mem_singleton.mp hf]
      exact hv.flags.1
  · rcases List.mem_append.mp hrep with hrep | hrep
    · obtain ⟨f, hf, hrep⟩ := List.mem_flatMap.mp hrep
      exact f.reports_framed rep hrep
    · have hending := hv.ending
      cases he : resp.ending with
      | unfinished => rw [he] at hrep; exact absurd hrep (by simp [Ending.reports])
      | head => rw [he] at hrep; exact absurd hrep (by simp [Ending.reports])
      | data f => rw [he] at hrep; exact f.reports_framed rep hrep
      | trailers f =>
        rw [he] at hrep hending
        exact HeadersFrame.reports_framed .headers hending.1 rep hrep

/-! ### The header of a plain response -/

/-- Of a text without a NUL the first `n` characters are copied. -/
theorem strncpy_eq_take {src : Bytes} (n : ℕ) (h0 : 0 ∉ src) : strncpy src n = src.take n := by
  have hall : src.takeWhile (· ≠ 0) = src := by
    rw [List.takeWhile_eq_self_iff]
    intro c hc
    rw [decide_eq_true_eq]
    rintro rfl
    exact h0 hc
  rw [strncpy, hall]

theorem strncpy_of_lt {src : Bytes} {n : ℕ} (h0 : 0 ∉ src) (hlen : src.length < n) :
    strncpy src n = src := by
  rw [strncpy_eq_take n h0, List.take_of_length_le (le_of_lt hlen)]

theorem tolower_colon {c : UInt8} (h : tolower c = 58) : c = 58 := by
  revert h
  unfold tolower
  split_ifs with hc
  · intro h
    have h1 := UInt8.le_iff_toNat_le.mp hc.1
    have h2 := UInt8.le_iff_toNat_le.mp hc.2
    have h3 := congrArg UInt8.toNat h
    simp only [UInt8.toNat_add, UInt8.reduceToNat] at h1 h2 h3
    omega
  · exact id

/-- A regular field is no status. -/
theorem strcasecmp_status {name : Bytes} (h : ∀ c, name.head? = some c → c ≠ 58) :
    strcasecmp name (bytes ":status") = false := by
  unfold strcasecmp
  cases name with
  | nil => decide
  | cons c cs =>
    have hc : tolower c ≠ 58 := fun h' => h c rfl (tolower_colon h')
    have hstatus : (bytes ":status").map tolower = 58 :: (bytes "status").map tolower := by decide
    rw [beq_eq_false_iff_ne, hstatus]
    intro heq
    exact hc (List.cons.inj heq).1

theorem addField_regular {h : Header} {p : Bytes × Bytes} (hp : regularField p)
    (h1 : p.1.length < 1024) (h2 : p.2.length < 4096) :
    addField h p.1 p.2 = headerAddPair h p.1 p.2 := by
  unfold addField
  rw [strncpy_of_lt hp.2.1 h1, strncpy_of_lt hp.2.2 h2, strcasecmp_status hp.1]
  rfl

/-- The fields of a plain response are added in order. -/
theorem foldl_addField {fields : List (Bytes × Bytes)} {h : Header}
    (hreg : ∀ p ∈ fields, regularField p)
    (hfit : ∀ p ∈ fields, p.1.length < 1024 ∧ p.2.length < 4096) :
    fields.foldl (fun h p => addField h p.1 p.2) h =
      { h with listHeaders := h.listHeaders ++ fields.map fun p => ⟨p.1, p.2⟩ } := by
  induction fields generalizing h with
  | nil => simp
  | cons p fields ih =>
    have hp := hfit p (by simp)
    rw [List.foldl_cons, addField_regular (hreg p (by simp)) hp.1 hp.2,
      ih (fun x hx => hreg x (by simp [hx])) fun x hx => hfit x (by simp [hx])]
    simp only [headerAddPair, List.append_assoc, List.map_cons, List.singleton_append]

theorem statusDigits.exists {status : Bytes} (h : statusDigits status) :
    ∃ a b c, status = [a, b, c] ∧ (48 ≤ a ∧ a ≤ 57) ∧ (48 ≤ b ∧ b ≤ 57) ∧ 48 ≤ c ∧ c ≤ 57 := by
  obtain ⟨hlen, hall⟩ := h
  obtain ⟨a, b, c, rfl⟩ := List.length_eq_three.mp hlen
  exact ⟨a, b, c, rfl, hall a (by simp), hall b (by simp), hall c (by simp)⟩

theorem atoi_status {status : Bytes} (h : statusDigits status) : atoi status = statusValue status := by
  obtain ⟨a, b, c, rfl, ha, hb, hc⟩ := h.exists
  simp only [atoi, atoiDigits, if_pos ha, if_pos hb, if_pos hc, statusValue]
  omega

theorem statusDigits.no_nul {status : Bytes} (h : statusDigits status) : 0 ∉ status := by
  intro hmem
  exact absurd (h.2 0 hmem).1 (by decide)

/-- A text without a NUL fits if it is shorter than the array. -/
theorem fits_iff (cat : HeadersCategory) {p : Bytes × Bytes} (h1 : 0 ∉ p.1) (h2 : 0 ∉ p.2) :
    Report.fits (.header cat p.1 p.2) = true ↔ p.1.length < 1024 ∧ p.2.length < 4096 := by
  rw [Report.fits, Bool.and_eq_true, decide_eq_true_eq, decide_eq_true_eq, strncpy_eq_take _ h1,
    strncpy_eq_take _ h2, List.length_take, List.length_take]
  omega

theorem Response.Plain.reports {resp : Response} (hp : resp.Plain) :
    resp.reports = resp.head.reports .response ++
      (resp.body.flatMap DataFrame.reports ++ resp.ending.reports) := by
  rw [Response.reports, hp.informational, List.nil_append, headersReports, headersReports,
    List.append_nil]

theorem Response.Plain.fits {resp : Response} (hp : resp.Plain) (hv : resp.Valid) :
    ∀ rep ∈ resp.reports, rep.fits = true := by
  intro rep hrep
  rw [hp.reports] at hrep
  rcases List.mem_append.mp hrep with hrep | hrep
  · rcases List.mem_append.mp hrep with hrep | hrep
    · obtain ⟨p, hmem, rfl⟩ := List.mem_map.mp hrep
      rcases List.mem_cons.mp hmem with rfl | hmem
      · have hlen := hv.status.1.1
        have hname : 0 ∉ statusName ∧ statusName.length < 1024 := by decide
        refine (fits_iff _ hname.1 hv.status.1.no_nul).mpr ⟨hname.2, ?_⟩
        show resp.status.length < 4096
        omega
      · exact (fits_iff _ (hv.fields p hmem).2.1 (hv.fields p hmem).2.2).mpr (hp.fields p hmem)
    · rw [List.mem_singleton.mp hrep]
      rfl
  · have hdata : ∀ f : DataFrame, ∀ x ∈ f.reports, x.fits = true := by
      intro f x hx
      rcases List.mem_append.mp hx with hx | hx
      · obtain ⟨data, _, rfl⟩ := List.mem_map.mp hx
        rfl
      · rw [List.mem_singleton.mp hx]
        rfl
    rcases List.mem_append.mp hrep with hrep | hrep
    · obtain ⟨f, hf, hrep⟩ := List.mem_flatMap.mp hrep
      exact hdata f rep hrep
    · cases he : resp.ending with
      | unfinished => rw [he] at hrep; exact absurd hrep (by simp [Ending.reports])
      | head => rw [he] at hrep; exact absurd hrep (by simp [Ending.reports])
      | data f => rw [he] at hrep; exact hdata f rep hrep
      | trailers f => exact absurd he (hp.trailers f)

/-- The proxy after it has submitted the first request. -/
def submittedGet : World :=
  finalState (run step (inputs (opening ++ getRequest 0 ++ [.timer 0])) World.init)

/-- That request. -/
def firstGet : Header := { id := 1, method := bytes "GET", url := some (bytes "/") }

end H2ClientProxy
