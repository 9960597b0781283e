import Mathlib.Data.List.Forall2
import Mathlib.Data.List.Infix
import Mathlib.Tactic.Common

/-!
# Answering in Order

A service takes requests in at an entry, works through a queue of them, and responds. Some of its
responses are answers, each to one request; others it sends of its own accord. A `Pipeline` says
that no request is lost or served twice on the way: those that have been sent are, in this order,
the answered ones, those in the queue and those at the entry.

Whoever reads the responses one at a time, one for each request sent, takes the first responses for
the answers to the first requests. They are if and only if there is nothing else among them.

## Main results

* `Pipeline.submit`, `Pipeline.enqueue`, `Pipeline.answer`: the moves of a request.
* `Pipeline.in_step_iff`: when a reader is in step with the service.
-/

section Service

variable {Request Response : Type*} {answers : Response → Request → Prop}
  {isAnswer : Response → Bool}

/-- **Every request is in one place**, and the answers are in the order of the requests. -/
def Pipeline (answers : Response → Request → Prop) (isAnswer : Response → Bool)
    (sent entry queue : List Request) (responses : List Response) : Prop :=
  ∃ answered, sent = answered ++ (queue ++ entry) ∧
    List.Forall₂ answers (responses.filter isAnswer) answered

namespace Pipeline

variable {sent entry queue : List Request} {responses : List Response} {request : Request}

theorem nil : Pipeline answers isAnswer [] [] [] [] :=
  ⟨[], rfl, List.Forall₂.nil⟩

/-- Only the answers among the responses count. -/
theorem congr (h : Pipeline answers isAnswer sent entry queue responses)
    {responses' : List Response}
    (hsame : responses'.filter isAnswer = responses.filter isAnswer) :
    Pipeline answers isAnswer sent entry queue responses' := by
  obtain ⟨answered, hsent, hall⟩ := h
  exact ⟨answered, hsent, by rwa [hsame]⟩

/-- A request is sent. -/
theorem submit (h : Pipeline answers isAnswer sent entry queue responses) (request : Request) :
    Pipeline answers isAnswer (sent ++ [request]) (entry ++ [request]) queue responses := by
  obtain ⟨answered, rfl, hall⟩ := h
  exact ⟨answered, by simp only [List.append_assoc], hall⟩

/-- The first request at the entry is taken into the queue. -/
theorem enqueue (h : Pipeline answers isAnswer sent (request :: entry) queue responses) :
    Pipeline answers isAnswer sent entry (queue ++ [request]) responses := by
  obtain ⟨answered, rfl, hall⟩ := h
  exact ⟨answered, by simp only [List.append_assoc, List.singleton_append], hall⟩

/-- Something else is sent. -/
theorem notify (h : Pipeline answers isAnswer sent entry queue responses)
    {others : List Response} (hothers : ∀ r ∈ others, isAnswer r = false) :
    Pipeline answers isAnswer sent entry queue (responses ++ others) := by
  have hnone : others.filter isAnswer = [] :=
    List.filter_eq_nil_iff.mpr fun r hr => by simp [hothers r hr]
  refine h.congr ?_
  rw [List.filter_append, hnone, List.append_nil]

/-- The first request in the queue is answered. -/
theorem answer (h : Pipeline answers isAnswer sent entry (request :: queue) responses)
    {response : Response} (hanswer : isAnswer response = true) (hanswers : answers response request) :
    Pipeline answers isAnswer sent entry queue (responses ++ [response]) := by
  obtain ⟨answered, rfl, hall⟩ := h
  refine ⟨answered ++ [request], by rw [List.append_assoc, List.cons_append, List.singleton_append],
    ?_⟩
  rw [List.filter_append, List.filter_cons_of_pos hanswer, List.filter_nil]
  exact List.rel_append hall (List.Forall₂.cons hanswers List.Forall₂.nil)

/-- Once nothing waits, there is a response for every request. -/
theorem length_le (h : Pipeline answers isAnswer sent [] [] responses) :
    sent.length ≤ responses.length := by
  obtain ⟨answered, rfl, hall⟩ := h
  rw [List.append_nil, List.append_nil, ← hall.length_eq]
  exact List.length_filter_le _ _

/-- The answers among the first responses are those to the first requests, in order. -/
theorem exists_answered (h : Pipeline answers isAnswer sent entry queue responses)
    {first : List Response} (hfirst : first <+: responses) :
    ∃ answered, answered <+: sent ∧ List.Forall₂ answers (first.filter isAnswer) answered := by
  obtain ⟨answered, rfl, hall⟩ := h
  obtain ⟨rest, rfl⟩ := hfirst
  have htake := List.forall₂_take (first.filter isAnswer).length hall
  rw [List.filter_append, List.take_left] at htake
  exact ⟨answered.take _, (List.take_prefix _ _).trans (List.prefix_append _ _), htake⟩

/-- **A reader is in step** with the service if and only if all it has read are answers. -/
theorem in_step_iff (h : Pipeline answers isAnswer sent entry queue responses)
    (hanswers : ∀ response request, answers response request → isAnswer response = true)
    {first : List Response} (hfirst : first <+: responses) :
    List.Forall₂ answers first (sent.take first.length) ↔ ∀ r ∈ first, isAnswer r = true := by
  constructor
  · intro hall r hr
    obtain ⟨i, hi, rfl⟩ := List.mem_iff_getElem.mp hr
    exact hanswers _ _ ((List.forall₂_iff_get.mp hall).2 i hi (by rwa [← hall.length_eq]))
  · intro hall
    obtain ⟨answered, hbegin, hanswered⟩ := h.exists_answered hfirst
    rw [List.filter_eq_self.mpr hall] at hanswered
    rwa [hanswered.length_eq, ← List.prefix_iff_eq_take.mp hbegin]

end Pipeline

end Service
