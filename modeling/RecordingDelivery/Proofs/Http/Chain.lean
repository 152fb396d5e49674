import RecordingDelivery.Http.Client

/-!
Which exchanges end in success. From the first request a chain leads to the last, each request where
the answer before it leads; only the first carries a form.
-/
namespace RecordingDelivery.Http

/-- A first request and those to which the answers led, the last first. -/
inductive Follows (n : Network) (first : Request) : Record → Prop
  | first : Follows n first [⟨first, n [] first⟩]
  | next {r next : Request} {status : Nat} {location : Option Bytes} {past : Record}
      (before : Follows n first (⟨r, .reply status location⟩ :: past))
      (leads : r.redirect status location = .leads next) :
      Follows n first (⟨next, n (⟨r, .reply status location⟩ :: past) next⟩ ::
        ⟨r, .reply status location⟩ :: past)

section Redirect

variable {r next : Request} {status : Nat} {location : Option Bytes}

theorem follows_of_leads (h : r.redirect status location = .leads next) :
    r.follows status = true := by
  unfold Request.redirect at h
  split at h
  · assumption
  · simp at h

theorem status_of_leads (hform : r.form.isSome = true)
    (h : r.redirect status location = .leads next) : status ∈ [301, 302, 303] := by
  have hfollows := follows_of_leads h
  unfold Request.follows at hfollows
  have hnone : r.form.isNone = false := by
    cases hf : r.form <;> simp [hf] at hform ⊢
  simpa [hnone] using hfollows

theorem redirect_of_success (r : Request) (h : isSuccess status = true) (location : Option Bytes) :
    r.redirect status location = .stays := by
  have hrange : 200 ≤ status ∧ status < 300 := by simpa [isSuccess] using h
  have hno : r.follows status = false := by
    simp only [Request.follows, Bool.or_eq_false_iff, Bool.and_eq_false_iff]
    refine ⟨?_, .inl ?_⟩ <;>
      · rw [← Bool.not_eq_true, List.contains_iff_mem]
        simp
        omega
  simp [Request.redirect, hno]

end Redirect

variable {n : Network} {first : Request} {record : Record}

section Perform

variable {left status : Nat} {past : Record} {r next : Request} {location : Option Bytes}
  (ha : n past r = .reply status location)
include ha

theorem perform_of_stays (left : Nat) (hr : r.redirect status location = .stays) :
    perform n left past r = (some status, ⟨r, .reply status location⟩ :: past) := by
  unfold perform
  simp only [ha, hr]

theorem perform_of_leads (left : Nat) (hr : r.redirect status location = .leads next) :
    perform n (left + 1) past r = perform n left (⟨r, .reply status location⟩ :: past) next := by
  rw [perform]
  simp only [ha, hr]

end Perform

theorem stays_last {r : Request} {answer : Answer} {past : Record} {status : Nat} :
    (∃ last location before, (⟨r, answer⟩ :: past : Record) =
        ⟨last, .reply status location⟩ :: before ∧ last.redirect status location = .stays) ↔
      ∃ location, answer = .reply status location ∧ r.redirect status location = .stays := by
  constructor
  · rintro ⟨last, location, before, he, hr⟩
    obtain ⟨he, -⟩ := List.cons.inj he
    obtain ⟨rfl, rfl⟩ := Exchange.mk.inj he
    exact ⟨location, rfl, hr⟩
  · rintro ⟨location, rfl, hr⟩
    exact ⟨r, location, past, rfl, hr⟩

/-- An exchange follows a chain as far as it goes, and ends with a status if the last answer stays. -/
theorem follows_perform (left : Nat) {past : Record} {r : Request}
    (h : Follows n first (⟨r, n past r⟩ :: past)) :
    Follows n first (perform n left past r).2 ∧
      (perform n left past r).2.length ≤ past.length + left + 1 ∧
      ∀ status, (perform n left past r).1 = some status ↔
        ∃ last location before, (perform n left past r).2 = ⟨last, .reply status location⟩ :: before ∧
          last.redirect status location = .stays := by
  fun_induction perform n left past r with
  | case1 left past r answer past' ha | case2 left past r answer past' ha =>
    refine ⟨h, by simp [past'], fun s => ?_⟩
    rw [stays_last, ha]
    simp
  | case3 left past r answer past' status location ha hr
  | case4 left past r answer past' status location ha hr
  | case5 past r answer past' status location ha next hr =>
    refine ⟨h, by simp [past'], fun s => ?_⟩
    have hreply : answer = .reply status location := ha
    rw [stays_last, hreply]
    by_cases hs : status = s
    · subst hs
      simp [hr]
    · simp [hs]
  | case6 past r answer past' status location ha next hr left ih =>
    have hanswer : n past r = .reply status location := ha
    simp only [past', answer, hanswer] at ih ⊢
    rw [hanswer] at h
    obtain ⟨hfollows, hlength, hends⟩ := ih (h.next hr)
    refine ⟨hfollows, ?_, hends⟩
    simp only [List.length_cons] at hlength
    omega

/-- An exchange goes along each chain that is short enough. -/
theorem Follows.perform_eq (h : Follows n first record) {left : Nat} {e : Exchange} {past : Record}
    (hrecord : record = e :: past) (hshort : past.length ≤ left) :
    perform n left [] first = perform n (left - past.length) past e.request ∧
      e.answer = n past e.request := by
  induction h generalizing e past with
  | first =>
    obtain ⟨rfl, rfl⟩ := List.cons.inj hrecord
    exact ⟨rfl, rfl⟩
  | @next r next status location before hbefore leads ih =>
    obtain ⟨rfl, rfl⟩ := List.cons.inj hrecord
    rw [List.length_cons] at hshort
    obtain ⟨heq, hanswer⟩ := ih rfl (by omega)
    refine ⟨?_, rfl⟩
    obtain ⟨k, hk⟩ : ∃ k, left - before.length = k + 1 := ⟨left - before.length - 1, by omega⟩
    have hk' : left - (⟨r, .reply status location⟩ :: before : Record).length = k := by
      rw [List.length_cons]
      omega
    rw [heq, hk, hk']
    exact perform_of_leads hanswer.symm k leads

theorem perform_eq_some_iff {left status : Nat} :
    perform n left [] first = (some status, record) ↔
      Follows n first record ∧ record.length ≤ left + 1 ∧
        ∃ last location before, record = ⟨last, .reply status location⟩ :: before ∧
          last.redirect status location = .stays := by
  constructor
  · intro h
    have hspec := follows_perform left (.first : Follows n first _)
    rw [h] at hspec
    exact ⟨hspec.1, by simpa using hspec.2.1, (hspec.2.2 status).mp rfl⟩
  · rintro ⟨hfollows, hlength, last, location, before, rfl, hstays⟩
    obtain ⟨heq, hanswer⟩ := hfollows.perform_eq rfl (by simpa using hlength : before.length ≤ left)
    rw [heq]
    exact perform_of_stays hanswer.symm _ hstays

/-- All requests but the first are without a form, and there are none unless its answer led on. -/
theorem Follows.later (h : Follows n first record) :
    ∃ later, record = later ++ [⟨first, n [] first⟩] ∧
      (∀ e ∈ later, e.request.method = .get ∧ e.request.form = none) ∧
      (later ≠ [] → ∃ status location next, n [] first = .reply status location ∧
        first.redirect status location = .leads next) := by
  induction h with
  | first => exact ⟨[], rfl, by simp, by simp⟩
  | @next r next status location past before leads ih =>
    obtain ⟨later, hlater, hplain, hled⟩ := ih
    refine ⟨⟨next, _⟩ :: later, by rw [hlater]; rfl, ?_, fun _ => ?_⟩
    · intro e he
      rcases List.mem_cons.mp he with rfl | he
      · exact (Request.form_of_redirect leads).symm
      · exact hplain e he
    · by_cases hnil : later = []
      · rw [hnil] at hlater
        obtain ⟨he, -⟩ := List.cons.inj hlater
        obtain ⟨rfl, ha⟩ := Exchange.mk.inj he
        exact ⟨status, location, next, ha.symm, leads⟩
      · exact hled hnil

end RecordingDelivery.Http
