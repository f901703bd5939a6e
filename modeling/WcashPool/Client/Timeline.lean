/-
  WcashPool.Client.Timeline — from instants to the registry's milliseconds
  (`MonotonicTimeline`, `unix.rs`).

  Instants are nanoseconds of one monotonic clock.  The registry counts whole
  milliseconds from the origin of the timeline, rounded down, both for anchors
  and for the present; so a deadline that is not reached in milliseconds is not
  reached in nanoseconds either.

  Main result: `instantMs_lt_deadline`.
-/
import WcashPool.Client.Calls

namespace WcashPool.Client

open Fallible Protocol WcashPool.Core

/-- Process-local monotonic time domain shared by backend delivery and pool policy. -/
structure MonotonicTimeline where
  origin : ℕ
deriving DecidableEq

inductive TimelineError
  | anchorPredatesTimeline
  | clockMovedBackwards
  | millisecondRangeExceeded
deriving DecidableEq, Repr

inductive JobStateIntegrationError
  | timeline (error : TimelineError)
  | registry (error : JobRegistryError)
deriving DecidableEq

def nanosPerMilli : ℕ := 1_000_000

namespace MonotonicTimeline

def instantMs (timeline : MonotonicTimeline) (instant : ℕ) : Except TimelineError ℕ := do
  rejectIf (instant < timeline.origin) TimelineError.clockMovedBackwards
  rejectIf ((instant - timeline.origin) / nanosPerMilli ≥ 2 ^ 64)
    TimelineError.millisecondRangeExceeded
  pure ((instant - timeline.origin) / nanosPerMilli)

/-- Anchors from before the timeline are refused, not rounded forward. -/
def anchorMs (timeline : MonotonicTimeline) (anchor : ℕ) : Except TimelineError ℕ := do
  rejectIf (anchor < timeline.origin) TimelineError.anchorPredatesTimeline
  timeline.instantMs anchor

variable {timeline : MonotonicTimeline}

theorem instantMs_eq_ok {instant ms : ℕ} (h : timeline.instantMs instant = .ok ms) :
    timeline.origin ≤ instant ∧ ms = (instant - timeline.origin) / nanosPerMilli := by
  obtain ⟨_, hback, h⟩ := bind_eq_ok.mp h
  replace h := passed h
  injection h with h
  exact ⟨not_lt.mp (rejectIf_eq_ok.mp hback), h.symm⟩

theorem anchorMs_eq_ok {anchor ms : ℕ} (h : timeline.anchorMs anchor = .ok ms) :
    timeline.instantMs anchor = .ok ms := by
  replace h := passed h
  exact h

/-- **Rounding never extends a lease.** -/
theorem instantMs_lt_deadline {now nowMs anchor anchorMs lifetime : ℕ}
    (hnow : timeline.instantMs now = .ok nowMs) (hanchor : timeline.anchorMs anchor = .ok anchorMs)
    (h : nowMs < anchorMs + lifetime) : now < anchor + lifetime * nanosPerMilli := by
  obtain ⟨hstart, rfl⟩ := instantMs_eq_ok hnow
  obtain ⟨hstart', rfl⟩ := instantMs_eq_ok (anchorMs_eq_ok hanchor)
  unfold nanosPerMilli at h ⊢
  omega

end MonotonicTimeline

/-- Initializes generation policy using the exact pre-subscription anchor. -/
def JobSnapshot.applyToRegistry (snapshot : JobSnapshot) (timeline : MonotonicTimeline)
    (r : GenerationRegistry) : Except JobStateIntegrationError Unit × GenerationRegistry :=
  match timeline.anchorMs snapshot.anchor with
  | .error error => (.error (.timeline error), r)
  | .ok anchorMs =>
    (r.applySnapshot snapshot.eventSeq snapshot.current snapshot.recent anchorMs).map
      (·.mapError .registry) id

/-- Applies the event using its transport anchor. -/
def DeliveredBackendEvent.applyToRegistry (ext : External) (delivered : DeliveredBackendEvent)
    (timeline : MonotonicTimeline) (r : GenerationRegistry) :
    Except JobStateIntegrationError Unit × GenerationRegistry :=
  match timeline.anchorMs delivered.anchor with
  | .error error => (.error (.timeline error), r)
  | .ok anchorMs => (r.applyEvent ext delivered.event anchorMs).map (·.mapError .registry) id

/-- Applies the event using its transport anchor and a later serialized policy time. -/
def DeliveredBackendEvent.applyToRegistryAt (ext : External) (delivered : DeliveredBackendEvent)
    (timeline : MonotonicTimeline) (policyNowMs : ℕ) (r : GenerationRegistry) :
    Except JobStateIntegrationError Unit × GenerationRegistry :=
  match timeline.anchorMs delivered.anchor with
  | .error error => (.error (.timeline error), r)
  | .ok anchorMs =>
    (r.applyEventAt ext delivered.event anchorMs policyNowMs).map (·.mapError .registry) id

end WcashPool.Client
