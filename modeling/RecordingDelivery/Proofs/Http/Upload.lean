import Mathlib
import RecordingDelivery.Proofs.Files.Calls
import RecordingDelivery.Proofs.Http.Chain

/-!
What one delivery sends, and how it ends. The file goes out once at most, in the first request, to the
endpoint of its destination; how the delivery ends is read off the last answer.
-/
namespace RecordingDelivery.Http

/-- A request that carries a file of the tree to its endpoint, as the only part of a form. -/
structure Request.Uploads (r : Request) (tree : Tree) (t : Task) : Prop where
  method : r.method = .post
  endpoint : Url.read? none t.destination.endpoint = some (.page r.url)
  form : ∃ contents, tree.read t.path = .ok contents ∧
    r.form = some [{ name := "file", fileName := t.path.fileName.map Utf8.lossy, contents }]

def Record.forms (r : Record) : List Request := (r.map (·.request)).filter (·.form.isSome)

namespace Client

variable {c : Client} {n : Network} {tree : Tree} {t : Task}

theorem isSuccess_iff {status : Nat} : isSuccess status = true ↔ 200 ≤ status ∧ status < 300 := by
  simp [isSuccess]

theorem resultOf_rejected {status : Option Nat} {s : Nat} :
    resultOf status = .error (.rejected s) ↔ status = some s ∧ isSuccess s = false := by
  cases status with
  | none => simp [resultOf]
  | some k =>
    by_cases hk : isSuccess k = true
    · simp [resultOf, hk]
      rintro rfl
      simp [hk]
    · simp [resultOf, hk]
      rintro rfl
      simpa using hk

theorem resultOf_ne_unreadable {status : Option Nat} {p : Path} {fault : Fault} :
    resultOf status ≠ .error (.unreadable p fault) := by
  cases status with
  | none => simp [resultOf]
  | some k => by_cases hk : isSuccess k = true <;> simp [resultOf, hk]

theorem deliver_of_read {contents : Bytes} (hread : tree.read t.path = .ok contents) :
    c.deliver n tree t = send.post c n t.destination.endpoint t.path contents := by
  obtain ⟨opened, hopen, hcontents⟩ := bind_ok hread
  cases opened <;> simp at hcontents <;> simp [deliver, hopen, send, hcontents]

theorem deliver_eq {contents : Bytes} {u : Url} (hread : tree.read t.path = .ok contents)
    (hu : Url.read? none t.destination.endpoint = some (.page u)) :
    c.deliver n tree t =
      (resultOf (perform n redirectLimit [] (c.upload u t.path contents)).1,
        (perform n redirectLimit [] (c.upload u t.path contents)).2) := by
  rw [deliver_of_read hread, send.post, hu]

/-- The file cannot be opened, or it cannot be sent, or there is an exchange that begins with it. -/
theorem deliver_cases (c : Client) (n : Network) (tree : Tree) (t : Task) :
    (∃ fault, tree.openFile t.path = .error fault ∧
      c.deliver n tree t = (.error (.unreadable t.path fault), [])) ∨
    ((∃ opened, tree.openFile t.path = .ok opened) ∧
      c.deliver n tree t = (.error .noAnswer, [])) ∨
    ∃ opened contents u, tree.openFile t.path = .ok opened ∧ tree.read t.path = .ok contents ∧
      Url.read? none t.destination.endpoint = some (.page u) := by
  cases hopen : tree.openFile t.path with
  | error fault => exact .inl ⟨fault, rfl, by simp [deliver, hopen]⟩
  | ok opened =>
    right
    cases hread : tree.read t.path with
    | error fault =>
      have hdir : opened = .directory := by
        cases opened <;> simp [Tree.read, hopen, bind, Except.bind] at hread ⊢
      exact .inl ⟨⟨opened, rfl⟩, by simp [deliver, hopen, hdir, send]⟩
    | ok contents =>
      have hpost := deliver_of_read (c := c) (n := n) hread
      cases hu : Url.read? none t.destination.endpoint with
      | none => exact .inl ⟨⟨opened, rfl⟩, by simp [hpost, send.post, hu]⟩
      | some reference =>
        cases reference with
        | foreign => exact .inl ⟨⟨opened, rfl⟩, by simp [hpost, send.post, hu]⟩
        | page u => exact .inr ⟨opened, contents, u, rfl, rfl, rfl⟩

theorem forms_of_later {first : Exchange} {later : Record}
    (hplain : ∀ e ∈ later, e.request.method = .get ∧ e.request.form = none) :
    Record.forms (later ++ [first]) = if first.request.form.isSome then [first.request] else [] := by
  have hnone : (later.map (·.request)).filter (·.form.isSome) = [] := by
    rw [List.filter_eq_nil_iff]
    intro r hr
    obtain ⟨e, he, rfl⟩ := List.mem_map.mp hr
    simp [(hplain e he).2]
  rw [Record.forms, List.map_append, List.filter_append, hnone, List.map_singleton,
    List.filter_cons, List.filter_nil, List.nil_append]

/-- The file goes out in one request at most, with which the exchange begins: a form with nothing but the
file, posted to the endpoint. The requests behind it are those to which the answers lead, and they
carry nothing. A file that cannot be opened is reported, and nothing is sent. The delivery succeeds
just when the last answer is a success, and is rejected with a status just when this is the last
answer, is no success and leads nowhere. -/
theorem deliver_sends_once (c : Client) (n : Network) (tree : Tree) (t : Task) :
    let result := (c.deliver n tree t).1
    let record := (c.deliver n tree t).2
    record.forms.length ≤ 1 ∧
    (record = [] ∨ ∃ upload later, upload.Uploads tree t ∧
      record = later ++ [⟨upload, n [] upload⟩] ∧ later.length ≤ redirectLimit ∧
      Follows n upload record ∧ ∀ e ∈ later, e.request.method = .get ∧ e.request.form = none) ∧
    (∀ fault, tree.openFile t.path = .error fault →
      result = .error (.unreadable t.path fault) ∧ record = []) ∧
    (∀ p fault, result = .error (.unreadable p fault) →
      p = t.path ∧ tree.openFile t.path = .error fault) ∧
    (result = .ok () ↔ ∃ last status location past,
      record = ⟨last, .reply status location⟩ :: past ∧ 200 ≤ status ∧ status < 300) ∧
    (∀ s, result = .error (.rejected s) ↔ ¬ (200 ≤ s ∧ s < 300) ∧ ∃ last location past,
      record = ⟨last, .reply s location⟩ :: past ∧ last.redirect s location = .stays) := by
  intro result record
  rcases deliver_cases c n tree t with
    ⟨fault, hopen, h⟩ | ⟨⟨opened, hopen⟩, h⟩ | ⟨opened, contents, u, hopen, hread, hu⟩
  · have hresult : result = .error (.unreadable t.path fault) := congrArg Prod.fst h
    have hrecord : record = [] := congrArg Prod.snd h
    rw [hresult, hrecord, hopen]
    refine ⟨by simp [Record.forms], .inl rfl, ?_, ?_, by simp, by simp⟩
    · rintro fault' ⟨⟩
      exact ⟨rfl, rfl⟩
    · rintro p fault' ⟨⟩
      exact ⟨rfl, rfl⟩
  · have hresult : result = .error .noAnswer := congrArg Prod.fst h
    have hrecord : record = [] := congrArg Prod.snd h
    rw [hresult, hrecord, hopen]
    simp [Record.forms]
  · have h : c.deliver n tree t = _ := deliver_eq hread hu
    generalize hupload : c.upload u t.path contents = upload at h
    have huploads : upload.Uploads tree t := by
      rw [← hupload]
      exact ⟨rfl, hu, contents, hread, rfl⟩
    obtain ⟨hfollows, hlength, hends⟩ := follows_perform redirectLimit
      (.first : Follows n upload _)
    have hresult : result = resultOf (perform n redirectLimit [] upload).1 := congrArg Prod.fst h
    have hrecord : record = (perform n redirectLimit [] upload).2 := congrArg Prod.snd h
    rw [← hrecord] at hfollows hlength hends
    obtain ⟨later, hlater, hplain, -⟩ := hfollows.later
    refine ⟨?_, .inr ⟨upload, later, huploads, hlater, ?_, hfollows, hplain⟩, ?_, ?_, ?_, ?_⟩
    · rw [hlater, forms_of_later hplain]
      split <;> simp
    · rw [hlater] at hlength
      simpa using hlength
    · simp [hopen]
    · intro p fault hp
      exact absurd (hresult.symm.trans hp) resultOf_ne_unreadable
    · simp only [hresult, resultOf_ok, hends, isSuccess_iff]
      constructor
      · rintro ⟨status, ⟨last, location, past, hlast, -⟩, hs⟩
        exact ⟨last, status, location, past, hlast, hs⟩
      · rintro ⟨last, status, location, past, hlast, hs⟩
        have hstays := redirect_of_success last (isSuccess_iff.mpr hs) location
        exact ⟨status, ⟨last, location, past, hlast, hstays⟩, hs⟩
    · intro s
      rw [hresult, resultOf_rejected, hends, ← Bool.not_eq_true, isSuccess_iff, and_comm]

def spooled : Tree := { entries := [([Bytes.ofText "a"], .file (Bytes.ofText "1"))] }

def waiting : Task := .fresh (.ofText "/a") (.ofEndpoint "http://h/u") .epoch 0

/-- The first request is to be sent again, as it was. -/
def repeating : Network := .scripted [.reply 307 (some (Bytes.ofText "/again"))]

/-- It is not, as its file has been read, and the answer counts. -/
theorem deliver_sends_once_repeating :
    (Client.deliver ⟨"agent"⟩ repeating spooled waiting).1 = .error (.rejected 307) ∧
      (Client.deliver ⟨"agent"⟩ repeating spooled waiting).2.forms.length ≤ 1 := by
  obtain ⟨honce, -, -, -, -, hrejected⟩ := deliver_sends_once ⟨"agent"⟩ repeating spooled waiting
  have hread : spooled.read waiting.path = .ok (Bytes.ofText "1") := by cbv
  have hu : Url.read? none waiting.destination.endpoint =
      some (.page { host := "h", path := ["u"] }) := by decide +kernel
  have hrecord : (Client.deliver ⟨"agent"⟩ repeating spooled waiting).2 =
      [⟨Client.upload ⟨"agent"⟩ { host := "h", path := ["u"] } waiting.path (Bytes.ofText "1"),
        .reply 307 (some (Bytes.ofText "/again"))⟩] := by
    rw [deliver_eq hread hu, perform_of_stays rfl _ rfl]
  exact ⟨(hrejected 307).mpr ⟨by decide, _, _, _, hrecord, rfl⟩, honce⟩

end Client
end RecordingDelivery.Http
