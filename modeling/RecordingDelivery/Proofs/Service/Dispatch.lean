import Mathlib
import RecordingDelivery.Proofs.Http.Upload
import RecordingDelivery.Proofs.Service.Run

/-!
A service whose calls are deliveries of the client. Its files are finalized only after a delivery that
succeeded, which may be by the answer to the upload or by the last answer behind redirects of it.
-/
namespace RecordingDelivery

namespace Http.Client

/-- A file was read and sent, and a chain of at most ten redirects led to a success. -/
structure Acknowledged (c : Client) (n : Network) (tree : Tree) (t : Task) (upload : Request)
    (record : Record) : Prop where
  sends : ∃ contents u, tree.read t.path = .ok contents ∧
    Url.read? none t.destination.endpoint = some (.page u) ∧ upload = c.upload u t.path contents
  follows : Follows n upload record
  short : record.length ≤ redirectLimit + 1
  success : ∃ last status location past,
    record = ⟨last, .reply status location⟩ :: past ∧ isSuccess status = true

variable {c : Client} {n : Network} {tree : Tree} {t : Task} {upload : Request} {record : Record}

/-- A delivery succeeds just when its file was acknowledged. -/
theorem deliver_ok_iff :
    c.deliver n tree t = (.ok (), record) ↔ ∃ upload, c.Acknowledged n tree t upload record := by
  constructor
  · intro h
    rcases deliver_cases c n tree t with
      ⟨fault, -, hfails⟩ | ⟨-, hfails⟩ | ⟨-, contents, u, -, hread, hu⟩
    · simp [hfails] at h
    · simp [hfails] at h
    · rw [deliver_eq hread hu] at h
      obtain ⟨hresult, rfl⟩ := Prod.mk.inj h
      obtain ⟨hfollows, hlength, hends⟩ := follows_perform redirectLimit
        (.first : Follows n (c.upload u t.path contents) _)
      obtain ⟨status, hstatus, hs⟩ := resultOf_ok.mp hresult
      obtain ⟨last, location, past, hlast, -⟩ := (hends status).mp hstatus
      exact ⟨_, ⟨contents, u, hread, hu, rfl⟩, hfollows, by simpa using hlength,
        last, status, location, past, hlast, hs⟩
  · rintro ⟨-, ⟨contents, u, hread, hu, rfl⟩, hfollows, hshort, last, s, location, past, hlast, hs⟩
    have hperform := perform_eq_some_iff.mpr ⟨hfollows, hshort, last, location, past, hlast,
      redirect_of_success last hs location⟩
    rw [deliver_eq hread hu, hperform, resultOf_ok.mpr ⟨s, rfl, hs⟩]

/-- The upload itself was answered with success, or it was redirected and the success is the answer to
a request without the file. -/
theorem Acknowledged.cases (h : c.Acknowledged n tree t upload record) :
    (∃ status location, n [] upload = .reply status location ∧ isSuccess status = true ∧
      record = [⟨upload, .reply status location⟩]) ∨
    ∃ status location next later, n [] upload = .reply status location ∧
      status ∈ [301, 302, 303] ∧ upload.redirect status location = .leads next ∧
      record = later ++ [⟨upload, .reply status location⟩] ∧ later ≠ [] ∧
      later.length ≤ redirectLimit ∧
      ∀ e ∈ later, e.request.method = .get ∧ e.request.form = none := by
  obtain ⟨contents, u, -, -, hupload⟩ := h.sends
  have hform : upload.form.isSome = true := by
    rw [hupload]
    rfl
  obtain ⟨later, hrecord, hplain, hled⟩ := h.follows.later
  have hshort := h.short
  by_cases hnil : later = []
  · left
    obtain ⟨last, status, location, past, hlast, hs⟩ := h.success
    rw [hrecord, hnil] at hlast
    obtain ⟨he, -⟩ := List.cons.inj hlast
    obtain ⟨-, hanswer⟩ := Exchange.mk.inj he
    exact ⟨status, location, hanswer, hs, by rw [hrecord, hnil, hanswer]; rfl⟩
  · right
    obtain ⟨status, location, next, hanswer, hleads⟩ := hled hnil
    rw [hrecord, hanswer] at hshort ⊢
    refine ⟨status, location, next, later, rfl, status_of_leads hform hleads, hleads, rfl, hnil, ?_,
      hplain⟩
    simpa using hshort

end Http.Client

open Http

namespace Service

variable {s : Service} {t : Task} {e : Event}

theorem calling_happen (hp : s.phase = .calling t) (he : ∀ result, e ≠ .answer result) :
    (s.happen e).phase = .calling t := by
  cases e with
  | turn atDate =>
    simp only [happen, turn, hp]
    split <;> exact hp
  | diskFault => simp only [happen, diskFault, hp]
  | answer result => exact absurd rfl (he result)
  | enqueue p d | scan d dir | files tree | advance now | setWall wall | requestStop => exact hp

theorem finalizing_of_happen (hp : (s.happen e).phase = .finalizing t)
    (he : ∀ result, e ≠ .answer result) : s.phase = .finalizing t := by
  have htakeUp (found : Option Task × Outbox) : (s.takeUp found).phase ≠ .finalizing t := by
    unfold takeUp
    cases found.1 <;> simp
  cases e with
  | turn atDate =>
    simp only [happen] at hp
    split at hp
    · cases hphase : s.phase with
      | looking =>
        simp only [turn, hphase, look] at hp
        split at hp
        · simp at hp
        · exact absurd hp (htakeUp _)
      | waiting =>
        simp only [turn, hphase, wake] at hp
        split at hp
        · simp at hp
        · exact absurd hp (htakeUp _)
      | checking t' =>
        simp only [turn, hphase, check] at hp
        split at hp <;> simp at hp
      | finalizing t' => simp [turn, hphase, finalize] at hp
      | calling t' | stopped => simp [turn, hphase] at hp
    · exact hp
  | diskFault =>
    cases hphase : s.phase with
    | finalizing t' => simp [happen, diskFault, hphase] at hp
    | looking | waiting | checking t' | calling t' | stopped =>
      simp [happen, diskFault, hphase] at hp
  | answer result => exact absurd rfl (he result)
  | enqueue p d | scan d dir | files tree | advance now | setWall wall | requestStop => exact hp

end Service

/-- What the client did for a task: the files and the servers as they were, and all exchanges. -/
structure Delivery where
  task : Task
  tree : Tree
  network : Network
  record : Record

/-- A service and the deliveries of its client, the latest first. A result that is there has not come to
the courier yet. -/
structure Dispatch where
  service : Service
  result : Option CallResult := none
  deliveries : List Delivery := []

inductive Signal
  /-- Anything but the end of a call. -/
  | event (e : Event)
  | send (n : Network)
  | finish

namespace Dispatch

variable (c : Client)

def send (x : Dispatch) (n : Network) : Dispatch :=
  match x.service.phase, x.result with
  | .calling t, none =>
    let (result, record) := c.deliver n x.service.site.tree t
    { x with
      result := some result
      deliveries := ⟨t, x.service.site.tree, n, record⟩ :: x.deliveries }
  | _, _ => x

def finish (x : Dispatch) : Dispatch :=
  match x.result with
  | some result => { x with service := x.service.answer result, result := none }
  | none => x

def happen (x : Dispatch) : Signal → Dispatch
  | .event (.answer _) => x
  | .event e => { x with service := x.service.happen e }
  | .send n => x.send c n
  | .finish => x.finish

def run (x : Dispatch) (signals : List Signal) : Dispatch := signals.foldl (happen c) x

def fresh (tree : Tree) (now : Nat) (wall : Timestamp) : Dispatch :=
  { service := .fresh tree now wall }

variable {c} {x : Dispatch}

def Latest (c : Client) (x : Dispatch) (t : Task) (result : CallResult) : Prop :=
  ∃ d rest, x.deliveries = d :: rest ∧ d.task = t ∧
    c.deliver d.network d.tree t = (result, d.record)

/-- The courier gets the results of deliveries, and finalizes after a success. -/
structure Faithful (c : Client) (x : Dispatch) : Prop where
  result : ∀ result, x.result = some result → ∃ t, x.service.phase = .calling t ∧ x.Latest c t result
  finalizing : ∀ t, x.service.phase = .finalizing t → x.Latest c t (.ok ())

theorem faithful_fresh (tree : Tree) (now : Nat) (wall : Timestamp) :
    (fresh tree now wall).Faithful c :=
  ⟨by simp [fresh], by simp [fresh, Service.fresh]⟩

theorem Faithful.event (h : x.Faithful c) {e : Event} (he : ∀ result, e ≠ .answer result) :
    Faithful c { x with service := x.service.happen e } := by
  refine ⟨?_, ?_⟩
  · intro result hresult
    obtain ⟨t, hp, hlatest⟩ := h.result result hresult
    exact ⟨t, Service.calling_happen hp he, hlatest⟩
  · intro t hp
    exact h.finalizing t (Service.finalizing_of_happen hp he)

theorem Faithful.send (h : x.Faithful c) (n : Network) : (x.send c n).Faithful c := by
  unfold Dispatch.send
  split
  · rename_i t hp hnone
    refine ⟨?_, ?_⟩
    · intro result hresult
      obtain rfl := Option.some.inj hresult
      exact ⟨t, hp, _, _, rfl, rfl, rfl⟩
    · intro t' hp'
      simp [hp] at hp'
  · exact h

theorem Faithful.finish (h : x.Faithful c) : x.finish.Faithful c := by
  unfold Dispatch.finish
  cases hresult : x.result with
  | none => exact h
  | some result =>
    obtain ⟨t, hp, hlatest⟩ := h.result result hresult
    refine ⟨by simp, ?_⟩
    intro t' hp'
    cases result with
    | error failure => simp [Service.answer, hp] at hp'
    | ok u =>
      obtain rfl : t = t' := by simpa [Service.answer, hp] using hp'
      exact hlatest

theorem Faithful.happen (h : x.Faithful c) (signal : Signal) : (x.happen c signal).Faithful c := by
  cases signal with
  | event e =>
    cases e with
    | answer result => exact h
    | turn atDate | diskFault | enqueue p d | scan d dir | files tree | advance now | setWall wall
    | requestStop => exact h.event (by simp)
  | send n => exact h.send n
  | finish => exact h.finish

theorem Faithful.run (h : x.Faithful c) (signals : List Signal) : (x.run c signals).Faithful c := by
  induction signals generalizing x with
  | nil => exact h
  | cons signal rest ih => exact ih (h.happen signal)

theorem happen_tree (x : Dispatch) (signal : Signal)
    (hchange : (x.happen c signal).service.site.tree ≠ x.service.site.tree) :
    (∃ tree, signal = .event (.files tree)) ∨ ∃ t, x.service.phase = .finalizing t := by
  cases signal with
  | event e =>
    have hevent (he : ∀ result, e ≠ .answer result)
        (hchange : (x.service.happen e).site.tree ≠ x.service.site.tree) :
        (∃ tree, Signal.event e = .event (.files tree)) ∨ ∃ t, x.service.phase = .finalizing t := by
      rcases x.service.happen_tree e with hsame | ⟨tree, rfl⟩ | ⟨atDate, t, rfl, hp⟩
      · exact absurd hsame hchange
      · exact .inl ⟨tree, rfl⟩
      · exact .inr ⟨t, hp⟩
    cases e with
    | answer result => exact absurd rfl hchange
    | turn atDate | diskFault | enqueue p d | scan d dir | files tree | advance now | setWall wall
    | requestStop => exact hevent (by simp) hchange
  | send n =>
    have hsame : (x.send c n).service = x.service := by
      unfold Dispatch.send
      split <;> rfl
    exact absurd (congrArg (·.site.tree) hsame) hchange
  | finish =>
    have hsame : x.finish.service.site.tree = x.service.site.tree := by
      unfold Dispatch.finish
      split
      · exact Service.answer_tree _ _
      · rfl
    exact absurd hsame hchange

/-- A delivery succeeds just when its file was acknowledged: the upload was answered with success, or it
was redirected, and one of the at most ten requests behind it was, which carry no file. Only after
such a delivery of its file does the courier remove or rename one. -/
theorem finalizes_acknowledged (c : Client) :
    (∀ n tree t record, c.deliver n tree t = (.ok (), record) ↔
      ∃ upload, c.Acknowledged n tree t upload record) ∧
    (∀ n tree t upload record, c.Acknowledged n tree t upload record →
      (∃ status location, n [] upload = .reply status location ∧ isSuccess status = true ∧
        record = [⟨upload, .reply status location⟩]) ∨
      ∃ status location next later, n [] upload = .reply status location ∧
        status ∈ [301, 302, 303] ∧ upload.redirect status location = .leads next ∧
        record = later ++ [⟨upload, .reply status location⟩] ∧ later ≠ [] ∧
        later.length ≤ redirectLimit ∧
        ∀ e ∈ later, e.request.method = .get ∧ e.request.form = none) ∧
    ∀ tree now wall signals signal,
      let x := (fresh tree now wall).run c signals
      (x.happen c signal).service.site.tree ≠ x.service.site.tree →
        (∃ tree', signal = .event (.files tree')) ∨
        ∃ d rest upload, x.service.phase = .finalizing d.task ∧ x.deliveries = d :: rest ∧
          c.Acknowledged d.network d.tree d.task upload d.record := by
  refine ⟨fun _ _ _ _ => Client.deliver_ok_iff, fun _ _ _ _ _ h => h.cases, ?_⟩
  intro tree now wall signals signal x hchange
  have hfaithful : x.Faithful c := (faithful_fresh tree now wall).run signals
  rcases x.happen_tree signal hchange with hfiles | ⟨t, hp⟩
  · exact .inl hfiles
  · right
    obtain ⟨d, rest, hd, rfl, hdeliver⟩ := hfaithful.finalizing t hp
    obtain ⟨upload, hacknowledged⟩ := Client.deliver_ok_iff.mp hdeliver
    exact ⟨d, rest, upload, hp, hd, hacknowledged⟩

def agent : Client := ⟨"agent"⟩

def recorded : Tree := { entries := [([Bytes.ofText "a"], .file (Bytes.ofText "1"))] }

def recording : Task := .fresh (.ofText "/a") (.ofEndpoint "http://h/u") .epoch 0

/-- The first request is answered with a redirect, all others with success. -/
def leading : Network := .scripted [.reply 303 (some (Bytes.ofText "/done"))]

def posted : Http.Request :=
  agent.upload { host := "h", path := ["u"] } (.ofText "/a") (Bytes.ofText "1")

def asked : Http.Request := posted.withoutForm { host := "h", path := ["done"] }

def exchanged : Record :=
  [⟨asked, .reply 200 none⟩, ⟨posted, .reply 303 (some (Bytes.ofText "/done"))⟩]

theorem acknowledged_exchanged : agent.Acknowledged leading recorded recording posted exchanged := by
  have hleads : posted.redirect 303 (some (Bytes.ofText "/done")) = .leads asked := by
    decide +kernel
  refine ⟨⟨_, { host := "h", path := ["u"] }, by cbv, by decide +kernel, rfl⟩,
    Follows.first.next hleads, by decide, asked, 200, none, _, rfl, rfl⟩

def calling : Dispatch :=
  (fresh recorded 0 .epoch).run agent
    [.event (.enqueue (.ofText "/a") (.ofEndpoint "http://h/u")), .event (.turn false),
      .event (.turn false)]

def answered : Dispatch := calling.run agent [.send leading, .finish]

theorem answered_eq :
    answered = { service := calling.service.answer (.ok ())
                 deliveries := [⟨recording, recorded, leading, exchanged⟩] } := by
  have hp : calling.service.phase = .calling recording := by cbv
  have hnone : calling.result = none := by cbv
  have htree : calling.service.site.tree = recorded := by cbv
  have hdeliveries : calling.deliveries = [] := by cbv
  have hdeliver : agent.deliver leading recorded recording = (.ok (), exchanged) :=
    Client.deliver_ok_iff.mpr ⟨posted, acknowledged_exchanged⟩
  have hsend : calling.send agent leading =
      { calling with result := some (.ok ())
                     deliveries := [⟨recording, recorded, leading, exchanged⟩] } := by
    simp only [Dispatch.send, hp, hnone, htree, hdeliver, hdeliveries]
  show (calling.send agent leading).finish = _
  rw [hsend]
  rfl

theorem finalizes_answered :
    answered.service.site.tree.get? [Bytes.ofText "a"] = some (.file (Bytes.ofText "1")) ∧
      (answered.happen agent (.event (.turn false))).service.site.tree.get? [Bytes.ofText "a"] = none ∧
      (answered.happen agent (.event (.turn false))).service.site.tree.get?
        [Bytes.ofText "a_uploaded"] = some (.file (Bytes.ofText "1")) := by
  rw [answered_eq]
  refine ⟨?_, ?_, ?_⟩ <;> cbv

theorem finalizes_redirected :
    agent.deliver leading recorded recording = (.ok (), exchanged) ∧
      (∃ status location next later, leading [] posted = .reply status location ∧
        status ∈ [301, 302, 303] ∧ posted.redirect status location = .leads next ∧
        exchanged = later ++ [⟨posted, .reply status location⟩] ∧ later ≠ [] ∧
        later.length ≤ redirectLimit ∧
        ∀ e ∈ later, e.request.method = .get ∧ e.request.form = none) ∧
      ∃ d rest upload, answered.service.phase = .finalizing d.task ∧ answered.deliveries = d :: rest ∧
        agent.Acknowledged d.network d.tree d.task upload d.record := by
  obtain ⟨hdeliver, hcases, hrun⟩ := finalizes_acknowledged agent
  refine ⟨(hdeliver _ _ _ _).mpr ⟨posted, acknowledged_exchanged⟩, ?_, ?_⟩
  · rcases hcases _ _ _ _ _ acknowledged_exchanged with ⟨_, _, -, -, hrecord⟩ | hled
    · simp [exchanged] at hrecord
    · exact hled
  · have hchange : (answered.happen agent (.event (.turn false))).service.site.tree ≠
        answered.service.site.tree := by
      intro hsame
      have hgone := finalizes_answered.2.1
      rw [hsame, finalizes_answered.1] at hgone
      cases hgone
    rcases hrun recorded 0 .epoch
        [.event (.enqueue (.ofText "/a") (.ofEndpoint "http://h/u")), .event (.turn false),
          .event (.turn false), .send leading, .finish] (.event (.turn false)) hchange with
      ⟨tree, hfiles⟩ | hfinalizes
    · cases hfiles
    · exact hfinalizes

/-- The only request with the file was answered with a redirect. Yet the delivery succeeds, and the
file is renamed. -/
theorem delivers_refused :
    (∀ e ∈ exchanged, e.request.form ≠ none →
      e.answer = .reply 303 (some (Bytes.ofText "/done")) ∧ isSuccess 303 = false) ∧
    agent.deliver leading recorded recording = (.ok (), exchanged) ∧
    answered.deliveries.map (·.record) = [exchanged] ∧
    answered.service.site.tree.get? [Bytes.ofText "a"] = some (.file (Bytes.ofText "1")) ∧
    (answered.happen agent (.event (.turn false))).service.site.tree.get? [Bytes.ofText "a"] = none ∧
    (answered.happen agent (.event (.turn false))).service.site.tree.get?
      [Bytes.ofText "a_uploaded"] = some (.file (Bytes.ofText "1")) := by
  refine ⟨?_, Client.deliver_ok_iff.mpr ⟨posted, acknowledged_exchanged⟩, ?_, finalizes_answered⟩
  · intro e he hform
    simp only [exchanged, List.mem_cons, List.not_mem_nil, or_false] at he
    obtain rfl | rfl := he
    · exact absurd rfl hform
    · exact ⟨rfl, rfl⟩
  · rw [answered_eq]
    rfl

end Dispatch
end RecordingDelivery
