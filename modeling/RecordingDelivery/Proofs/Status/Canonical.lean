import RecordingDelivery.Proofs.Status.Report

/-!
Reports as texts. What is read as a report, from a table or from a list and with its moments given at
any distance from UTC, is a report that can be told; and the text that tells it is its own canonical
form, since to read and to write it once more changes nothing.
-/
namespace RecordingDelivery.Status

theorem isValid_readTimestamp {v : Value} {t : Timestamp} (h : readTimestamp v = .ok t) :
    t.isValid = true := by
  obtain ⟨s, -, h⟩ := bind_ok h
  split at h
  · rename_i t' ht
    obtain rfl := Except.ok.inj h
    exact Timestamp.isValid_of_parse? ht
  · simp [Decode.reject] at h

theorem Entry.fits_of_decode {v : Value} {e : Entry} (h : Entry.decode v = .ok e) : e.Fits := by
  obtain ⟨values, -, h⟩ := bind_ok h
  split at h
  · obtain ⟨_, -, h⟩ := bind_ok h
    obtain ⟨_, -, h⟩ := bind_ok h
    obtain ⟨attempt, hattempt, h⟩ := bind_ok h
    obtain ⟨enqueuedAt, henqueued, h⟩ := bind_ok h
    obtain ⟨eligibleIn, heligible, h⟩ := bind_ok h
    obtain rfl := Except.ok.inj h
    exact ⟨Decode.natural_lt hattempt, isValid_readTimestamp henqueued, Decode.natural_lt heligible⟩
  · simp [Decode.reject] at h

theorem Report.fits_of_decode {v : Value} {r : Report} (h : Report.decode v = .ok r) : r.Fits := by
  obtain ⟨values, -, h⟩ := bind_ok h
  split at h
  · obtain ⟨pending, hpending, h⟩ := bind_ok h
    obtain ⟨entries, hentries, h⟩ := bind_ok h
    obtain rfl := Except.ok.inj h
    refine ⟨Decode.natural_lt hpending, fun e he => ?_⟩
    obtain ⟨item, hitem⟩ := Decode.exists_of_list_ok hentries e he
    exact Entry.fits_of_decode hitem
  · simp [Decode.reject] at h

def Report.rewrite? (body : String) : Option String := (read? body).map render

/-- The reports that are read from any value are those whose counts and moments fit; each of them is read
back from its text; and a text that was written for what another one gave is rewritten to itself. -/
theorem report_canonical :
    (∀ r : Report, (∃ v, Report.decode v = .ok r) ↔ r.Fits) ∧
    (∀ r : Report, (∃ v, Report.decode v = .ok r) → Report.read? r.render = some r) ∧
    ∀ body text, Report.rewrite? body = some text → Report.rewrite? text = some text := by
  have hback : ∀ r : Report, (∃ v, Report.decode v = .ok r) → Report.read? r.render = some r := by
    rintro r ⟨v, hv⟩
    exact Report.read?_render (Report.fits_of_decode hv)
  refine ⟨fun r => ⟨?_, fun hfits => ⟨_, Report.decode_tidied hfits⟩⟩, hback, ?_⟩
  · rintro ⟨v, hv⟩
    exact Report.fits_of_decode hv
  · intro body text h
    obtain ⟨r, hr, rfl⟩ := Option.map_eq_some_iff.mp h
    obtain ⟨v, -, hv⟩ := Option.bind_eq_some_iff.mp hr
    have hdecode : Report.decode v = .ok r := by
      cases hd : Report.decode v with
      | ok r' =>
        rw [hd] at hv
        exact congrArg Except.ok (Option.some.inj hv)
      | error e =>
        rw [hd] at hv
        simp [Except.toOption] at hv
    rw [Report.rewrite?, hback r ⟨v, hdecode⟩, Option.map_some]

/-- A list, with a leap second half an hour ahead of UTC. -/
def foreignText : String := "[1, [[\"/a\", \"u\", 3, \"2017-01-01 00:29:60.25+00:30\", 7]]]"

def ownText : String :=
  "\x7b\"pending\":1,\"tasks\":[\x7b\"path\":\"/a\",\"endpoint_url\":\"u\",\"attempt\":3," ++
    "\"enqueued_at\":\"2016-12-31T23:59:60.250Z\",\"eligible_in_secs\":7\x7d]\x7d"

theorem report_canonical_leap : Report.rewrite? foreignText = some ownText ∧
    Report.rewrite? ownText = some ownText := by
  have hrewrite : Report.rewrite? foreignText = some ownText := by decide +kernel
  exact ⟨hrewrite, report_canonical.2.2 foreignText ownText hrewrite⟩

end RecordingDelivery.Status
