import RecordingDelivery.Proofs.Document.Decode
import RecordingDelivery.Proofs.Outbox.Handout
import RecordingDelivery.Proofs.Time.Timestamp
import RecordingDelivery.Status.Server

/-!
The status page tells what the outbox holds. Its text is read back as the report that was written, the
entries of which describe the tasks in the order in which they will leave; and to ask for a page, of
whatever kind and however often, changes nothing.
-/
namespace RecordingDelivery

namespace Status

/-- The numbers of an entry are counts of 32 and of 64 bits, and its moment can be read. -/
structure Entry.Fits (e : Entry) : Prop where
  attempt : e.attempt < Decode.limit32
  enqueuedAt : e.enqueuedAt.isValid = true
  eligibleIn : e.eligibleIn < Decode.limit64

/-- The report that a text gives, read through tables of its values: of a field that is given twice the
later counts. -/
def Report.read? (body : String) : Option Report :=
  (Json.parse? body).bind fun v => (Report.decode v).toOption

theorem readTimestamp_render {t : Timestamp} (h : t.isValid = true) :
    readTimestamp (.text t.render) = .ok t := by
  simp only [readTimestamp, Decode.text, bind, Except.bind, Timestamp.parse?_render h]

theorem Entry.decode_tidied {e : Entry} (h : e.Fits) : Entry.decode e.toValue.tidied = .ok e := by
  have hfields : Decode.required "PendingUpload"
      ["path", "endpoint_url", "attempt", "enqueued_at", "eligible_in_secs"] e.toValue.tidied =
      .ok [.text e.path, .text e.endpoint, .int e.attempt, .text e.enqueuedAt.render,
        .int e.eligibleIn] := by
    simp only [toValue, Value.tidied, Value.fieldsTidied, Decode.required_tableOf]
    simp [Decode.required, List.mapM_cons, Value.lookup_field]
    rfl
  have hattempt := Decode.natural_ok h.attempt
  have heligible : Decode.natural64 _ = _ := Decode.natural_ok h.eligibleIn
  have henqueued := readTimestamp_render h.enqueuedAt
  rw [decode, hfields]
  show (do return ⟨← Decode.text (.text e.path), ← Decode.text (.text e.endpoint),
    ← Decode.natural Decode.limit32 (.int e.attempt), ← readTimestamp (.text e.enqueuedAt.render),
    ← Decode.natural64 (.int e.eligibleIn)⟩ : Except DecodeError Entry) = _
  rw [hattempt, henqueued, heligible]
  rfl

structure Report.Fits (r : Report) : Prop where
  pending : r.pending < Decode.limit64
  entries : ∀ e ∈ r.entries, e.Fits

theorem Entry.isPlain_toValue {e : Entry} (h : e.Fits) : e.toValue.isPlain = true := by
  have hattempt : e.attempt < Decode.limit64 := Nat.lt_trans h.attempt (by decide)
  have h1 := Value.isPlain_count hattempt
  have h2 := Value.isPlain_count h.eligibleIn
  simp only [Value.isPlain] at h1 h2
  simp only [toValue, Value.isPlain, Value.fieldsPlain, h1, h2]
  rfl

theorem Report.decode_tidied {r : Report} (h : r.Fits) : Report.decode r.toValue.tidied = .ok r := by
  have hfields : Decode.required "StatusReport" ["pending", "tasks"] r.toValue.tidied =
      .ok [.int r.pending, .list (r.entries.map fun e => e.toValue.tidied)] := by
    simp only [toValue, Value.tidied, Value.fieldsTidied, Decode.required_tableOf, Value.itemsTidied_eq]
    simp [Decode.required, List.mapM_cons, Value.lookup_field]
    rfl
  have hpending : Decode.natural64 _ = _ := Decode.natural_ok h.pending
  have hentries : Decode.list Entry.decode (.list (r.entries.map fun e => e.toValue.tidied)) = _ :=
    Decode.list_ok fun e he => Entry.decode_tidied (h.entries e he)
  rw [decode, hfields]
  show (do return ⟨← Decode.natural64 (.int r.pending),
    ← Decode.list Entry.decode (.list (r.entries.map fun e => e.toValue.tidied))⟩ :
      Except DecodeError Report) = _
  rw [hpending, hentries]
  rfl

theorem Report.read?_render {r : Report} (h : r.Fits) : Report.read? r.render = some r := by
  have hplain : r.toValue.isPlain = true := by
    have hentries : Value.itemsPlain (r.entries.map Entry.toValue) = true := by
      rw [Value.itemsPlain_iff]
      intro v hv
      obtain ⟨e, he, rfl⟩ := List.mem_map.mp hv
      exact Entry.isPlain_toValue (h.entries e he)
    have hpending := Value.isPlain_count h.pending
    simp only [Value.isPlain] at hpending
    simp only [toValue, Value.isPlain, Value.fieldsPlain, hpending, hentries]
    rfl
  rw [read?, render, Json.parse?_render hplain, Option.bind_some, decode_tidied h]
  rfl

end Status

namespace Outbox

/-- Moments exist, and from an instant at which tasks come in the longest delay can be counted. -/
def Act.Fits : Act → Prop
  | .enqueue _ _ wall now | .scan _ _ _ wall now =>
    wall.isValid = true ∧ now + horizon ≤ Duration.longest
  | .requeue t _ now => t.enqueuedAt.isValid = true ∧ now + horizon ≤ Duration.longest
  | .takeDue _ | .look _ _ | .resume _ _ _ | .leave _ => True

end Outbox

/-- The failed attempts of a task are counted in 32 bits, its moment exists and its date can be told. -/
structure Task.Fits (t : Task) : Prop where
  attempt : t.attempt ≤ Task.attemptLimit
  enqueuedAt : t.enqueuedAt.isValid = true
  due : t.due ≤ Duration.longest

namespace Outbox

variable {o : Outbox} {P : Task → Prop}

theorem forall_insert (h : o.schedule.Sound) (hall : ∀ t ∈ o.tasks, P t) {t : Task} (ht : P t) :
    ∀ u ∈ (o.insert t).2.tasks, P u := by
  rcases insert_tasks h t with ⟨-, hi⟩ | ⟨o', -, hi, -, htasks⟩
  · rw [hi]
    exact hall
  · rw [hi]
    intro u hu
    rw [htasks] at hu
    rcases mem_place.mp hu with rfl | hu
    · exact ht
    · exact hall u hu

theorem forall_enqueue (h : o.schedule.Sound) (hall : ∀ t ∈ o.tasks, P t) {d : Destination}
    {wall : Timestamp} {now : Nat} (hfresh : ∀ p, P (Task.fresh p d wall now)) (p : Path) :
    ∀ u ∈ (o.enqueue p d wall now).2.tasks, P u := by
  unfold enqueue
  split
  · exact hall
  · exact forall_insert h hall (hfresh p)

theorem forall_enqueueAll (h : o.schedule.Sound) (hall : ∀ t ∈ o.tasks, P t) {d : Destination}
    {wall : Timestamp} {now : Nat} (hfresh : ∀ p, P (Task.fresh p d wall now)) (ps : List Path) :
    ∀ u ∈ (enqueueAll d wall now o ps).2.tasks, P u := by
  induction ps generalizing o with
  | nil => exact hall
  | cons p rest ih =>
    exact ih (grows_enqueue h p d wall now).1 (forall_enqueue h hall hfresh p)

theorem subset_act (h : o.schedule.Sound) {a : Act} (ha : a.putting? = none) :
    (o.act a).tasks ⊆ o.tasks := by
  rw [tasks_eq, tasks_eq]
  apply List.map_subset
  cases effect h a with
  | takes taking first due reply left =>
    rw [left, first]
    exact List.subset_cons_self _ _
  | puts new none htickets numbers number due =>
    have hnew : new = [] := by
      rw [List.eq_nil_iff_forall_not_mem]
      intro k hk
      obtain ⟨now, hnow, -⟩ := due k hk
      rw [ha] at hnow
      simp at hnow
    rw [htickets, hnew]
    exact List.Subset.refl _

theorem fits_act (h : o.schedule.Sound) (hall : ∀ t ∈ o.tasks, t.Fits) {a : Act} (ha : a.Fits) :
    ∀ t ∈ (o.act a).tasks, t.Fits := by
  have hfresh {d : Destination} {wall : Timestamp} {now : Nat}
      (hfit : wall.isValid = true ∧ now + horizon ≤ Duration.longest) (p : Path) :
      (Task.fresh p d wall now).Fits :=
    ⟨Nat.zero_le _, hfit.1, Nat.le_trans (Nat.le_add_right now horizon) hfit.2⟩
  cases a with
  | enqueue p d wall now => exact forall_enqueue h hall (hfresh ha) p
  | scan tree d dir wall now => exact forall_enqueueAll h hall (hfresh ha) _
  | requeue t delay now =>
    refine forall_insert h hall ⟨Nat.min_le_right _ _, ha.1, ?_⟩
    rw [Task.retryAt_due]
    have := ha.2
    omega
  | takeDue now | look taker now | resume taker now atDate | leave taker =>
    intro t ht
    exact hall t (subset_act h rfl ht)

theorem fits_after (h : o.schedule.Sound) (hall : ∀ t ∈ o.tasks, t.Fits) {acts : List Act}
    (hacts : ∀ a ∈ acts, a.Fits) : ∀ t ∈ (o.after acts).tasks, t.Fits := by
  induction acts generalizing o with
  | nil => exact hall
  | cons a rest ih =>
    exact ih (sound_act h a) (fits_act h hall (hacts a (by simp))) fun b hb => hacts b (by simp [hb])

theorem size_eq (o : Outbox) : o.size = o.tasks.length := (o.schedule.length_toList).symm

/-- Once all are due, the tasks leave one after the other as they are listed. -/
theorem replies_drain (h : o.schedule.Sound) {late : Nat} (hlate : ∀ t ∈ o.tasks, t.due ≤ late) :
    o.replies (List.replicate o.size (.takeDue late)) = o.tasks := by
  rw [size_eq]
  obtain ⟨l, hl⟩ : ∃ l, o.tickets = l := ⟨_, rfl⟩
  induction l generalizing o with
  | nil =>
    rw [tasks_eq, hl]
    rfl
  | cons k rest ih =>
    have htasks : o.tasks = k.task :: rest.map (·.task) := by rw [tasks_eq, hl]; rfl
    rcases h.takeDue_cases late with ⟨hnil, -⟩ | ⟨k', rest', hfirst, hlt, -⟩ |
      ⟨k', rest', s, hfirst, -, hd, hs, hleft, -⟩
    · rw [show o.schedule.tickets = k :: rest from hl] at hnil
      simp at hnil
    · obtain ⟨rfl, -⟩ := List.cons.inj (hl.symm.trans hfirst)
      have := hlate k.task (by simp [htasks])
      omega
    · obtain ⟨rfl, rfl⟩ := List.cons.inj (hl.symm.trans hfirst)
      have hact : o.act (.takeDue late) = { o with schedule := s } := by simp [act, takeDue, hd]
      have hreply : o.reply (.takeDue late) = some k.task := by simp [reply, takeDue, hd]
      have hrest : Outbox.tasks { o with schedule := s } = rest.map (·.task) := by
        rw [tasks_eq, tickets, hleft]
      have hmore := ih (o := { o with schedule := s }) hs
        (fun t ht => hlate t (by rw [htasks, ← hrest]; exact List.mem_cons_of_mem _ ht)) hleft
      rw [hrest] at hmore
      rw [htasks, List.length_cons, List.replicate_succ, replies, hact, hreply, hmore]
      rfl

end Outbox

namespace Status

/-- Something is done to the outbox, or someone asks for a page. -/
inductive Access
  | act (a : Outbox.Act)
  | request (now : Nat) (method uri : String)

def Access.act? : Access → Option Outbox.Act
  | .act a => some a
  | .request _ _ _ => none

structure Counter where
  outbox : Outbox := {}
  replies : List Reply := []

namespace Counter

def access (c : Counter) : Access → Counter
  | .act a => { c with outbox := c.outbox.act a }
  | .request now method uri => { c with replies := reply c.outbox now method uri :: c.replies }

def run (c : Counter) (accesses : List Access) : Counter := accesses.foldl access c

/-- The outbox is what the acts make of it, as though nobody had asked. -/
theorem outbox_run (c : Counter) (accesses : List Access) :
    (c.run accesses).outbox = c.outbox.after (accesses.filterMap Access.act?) := by
  induction accesses generalizing c with
  | nil => rfl
  | cons x rest ih =>
    rw [run, List.foldl_cons, ← run, ih]
    cases x <;> rfl

end Counter

/-- An entry tells of a task what it is, and in how many whole seconds it falls due. -/
structure Describes (now : Nat) (t : Task) (e : Entry) : Prop where
  path : e.path = Utf8.lossy t.path.bytes
  endpoint : e.endpoint = t.destination.endpoint
  attempt : e.attempt = t.attempt
  enqueuedAt : e.enqueuedAt = t.enqueuedAt
  past : t.due ≤ now → e.eligibleIn = 0
  ahead : now ≤ t.due → Duration.ofSeconds e.eligibleIn ≤ t.due - now ∧
    t.due - now < Duration.ofSeconds (e.eligibleIn + 1)

theorem describes_ofTask (now : Nat) (t : Task) : Describes now t (Entry.ofTask now t) := by
  refine ⟨rfl, rfl, rfl, rfl, ?_, ?_⟩
  · intro hpast
    simp [Entry.ofTask, Duration.seconds, Nat.sub_eq_zero_of_le hpast]
  · intro _
    simp only [Entry.ofTask, Duration.seconds, Duration.ofSeconds]
    omega

theorem fits_ofTask {t : Task} (h : t.Fits) (now : Nat) : (Entry.ofTask now t).Fits := by
  have hattempt : t.attempt ≤ 4294967295 := h.attempt
  have hdue : t.due ≤ 18446744073709551615 * 1000000000 + 999999999 := h.due
  have heligible : (t.due - now) / 1000000000 < 18446744073709551616 := by omega
  have hcount : t.attempt < 4294967296 := by omega
  exact ⟨hcount, h.enqueuedAt, heligible⟩

theorem sorted_ofTasks {tasks : List Task} (h : tasks.Pairwise (·.due ≤ ·.due)) (now : Nat) :
    (Report.ofTasks now tasks).entries.Pairwise (·.eligibleIn ≤ ·.eligibleIn) := by
  rw [Report.ofTasks, List.pairwise_map]
  refine h.imp fun {a b} hle => ?_
  exact Nat.div_le_div_right (Nat.sub_le_sub_right hle now)

theorem reply_status (o : Outbox) (now : Nat) {uri : String} (h : pathOf uri = "/status") :
    reply o now "GET" uri =
      { status := 200, contentType := some "application/json"
        body := (Report.ofTasks now o.tasks).render } := by
  simp [reply, h, page]

/-- Whatever has been done to an outbox and whoever has asked about it, the status page reads as a
report of as many tasks as wait, which describes them one by one as they would leave if all were due,
with the delays in order. To have asked has changed nothing. -/
theorem status_describes_outbox (accesses : List Access)
    (hfit : ∀ a ∈ accesses.filterMap Access.act?, a.Fits)
    (hsize : (({} : Counter).run accesses).outbox.size < Decode.limit64) (now : Nat) (uri : String)
    (huri : pathOf uri = "/status") :
    let o := (({} : Counter).run accesses).outbox
    o = ({} : Outbox).after (accesses.filterMap Access.act?) ∧
    ∃ r, (reply o now "GET" uri).status = 200 ∧
      Report.read? (reply o now "GET" uri).body = some r ∧
      r.pending = r.entries.length ∧ r.pending = o.size ∧
      (∀ late, (∀ t ∈ o.tasks, t.due ≤ late) →
        List.Forall₂ (Describes now) (o.replies (List.replicate o.size (.takeDue late))) r.entries) ∧
      r.entries.Pairwise (·.eligibleIn ≤ ·.eligibleIn) := by
  intro o
  have hacts : o = ({} : Outbox).after (accesses.filterMap Access.act?) :=
    Counter.outbox_run {} accesses
  have hsound : o.schedule.Sound := by
    rw [hacts]
    exact Outbox.sound_after Schedule.sound_empty _
  have htasks : ∀ t ∈ o.tasks, t.Fits := by
    rw [hacts]
    refine Outbox.fits_after Schedule.sound_empty ?_ hfit
    have hnone : ({} : Outbox).tasks = [] := Schedule.toList_empty
    simp [hnone]
  have hfits : (Report.ofTasks now o.tasks).Fits := by
    refine ⟨by rw [Report.ofTasks, ← Outbox.size_eq]; exact hsize, ?_⟩
    intro e he
    obtain ⟨t, ht, rfl⟩ := List.mem_map.mp he
    exact fits_ofTask (htasks t ht) now
  refine ⟨hacts, Report.ofTasks now o.tasks, ?_, ?_, ?_, ?_, ?_, ?_⟩
  · rw [reply_status o now huri]
  · rw [reply_status o now huri]
    exact Report.read?_render hfits
  · simp [Report.ofTasks]
  · exact (Outbox.size_eq o).symm
  · intro late hlate
    rw [Outbox.replies_drain hsound hlate]
    exact List.forall₂_map_right_iff.mpr (List.forall₂_same.mpr fun t _ => describes_ofTask now t)
  · exact sorted_ofTasks o.schedule.sorted_toList now

/-- A first attempt has failed and another file has come in, while someone asked in vain. -/
def visited : List Access :=
  let t := Task.fresh (.ofText "a") (.ofEndpoint "u") .epoch 5
  [.act (.enqueue t.path t.destination .epoch 5), .request 5 "POST" "/status", .act (.look 0 5),
    .act (.requeue t (Duration.ofSeconds 60) 7),
    .act (.enqueue (.ofText "b") (.ofEndpoint "u") .epoch 7)]

theorem fits_visited : ∀ a ∈ visited.filterMap Access.act?, a.Fits := by
  have hepoch : Timestamp.epoch.isValid = true := by decide
  have hsoon : 5 + Outbox.horizon ≤ Duration.longest ∧ 7 + Outbox.horizon ≤ Duration.longest := by
    decide
  have hacts : visited.filterMap Access.act? = [.enqueue _ _ .epoch 5, .look 0 5,
      .requeue (Task.fresh _ _ .epoch 5) _ 7, .enqueue _ _ .epoch 7] := rfl
  rw [hacts]
  simp only [List.forall_mem_cons, List.not_mem_nil, false_implies, implies_true, and_true]
  exact ⟨⟨hepoch, hsoon.1⟩, trivial, ⟨hepoch, hsoon.2⟩, ⟨hepoch, hsoon.2⟩⟩

theorem status_describes_visited :
    pathOf "/status?all" = "/status" ∧ ∃ r, r.pending = 2 ∧
      Report.read? (reply (({} : Counter).run visited).outbox 7 "GET" "/status?all").body = some r := by
  have hpath : pathOf "/status?all" = "/status" := by decide
  have hsize : (({} : Counter).run visited).outbox.size = 2 := by cbv
  obtain ⟨-, r, -, hread, -, hpending, -⟩ := status_describes_outbox visited fits_visited
    (by rw [hsize]; decide) 7 "/status?all" hpath
  exact ⟨hpath, r, hpending.trans hsize, hread⟩

end Status
end RecordingDelivery
