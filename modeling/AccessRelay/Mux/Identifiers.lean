import AccessRelay.Machine.Run
import AccessRelay.Mux.Books

/-!
# Stream identifiers over the life of a session

Identifiers are unique as long as nobody uses one twice: `Open` takes the next of its own half of
the space until the counter wraps, and `handleOpen` takes what the peer announces. The session
itself looks only at the streams that are live, so a peer that opens an identifier again after its
stream has been retired gets a second stream for it.
-/

namespace AccessRelay.Mux

open Encoding Proto Machine

/-- Nobody uses an identifier twice: `Open` does not wrap its counter, and the peer opens no
identifier that the session has used. -/
def freshIdentifiers (s : Session) : Event → Bool
  | .act (.advance index _) =>
      match s.calls[index]? with
      | some (.openStream _) => s.nextID.toNat + 2 < 2 ^ 32
      | _ => true
  | .frame f => f.type ≠ .openStream ∨ s.cells f.streamID = []
  | _ => true

section Fresh

variable {s s' : Session} {e : Event}

/-- A session stays tidy as long as identifiers are fresh. -/
theorem tidy_fresh (hs : s.Tidy) (hfresh : freshIdentifiers s e = true)
    (hreact : s.react e = some s') : s'.Tidy := by
  cases e with
  | act a =>
      refine tidy_step hs hreact ?_
      rintro index choice payload rfl hcall
      simpa [freshIdentifiers, hcall] using hfresh
  | frame f =>
      simp only [Session.react, Option.ite_none_right_eq_some] at hreact
      refine tidy_read hs hreact.2 ?_
      intro htype
      simpa [freshIdentifiers, htype] using hfresh

theorem Session.Keeps.no_growth (hk : s.Keeps s') {id : UInt32} :
    ¬ (s.cells id).length < (s'.cells id).length := by
  rw [hk.cells]
  exact Nat.lt_irrefl _

theorem Session.Registers.growth {i : UInt32} (hr : s.Registers s' i) {id : UInt32}
    (hlt : (s.cells id).length < (s'.cells id).length) : id = i := by
  obtain ⟨c, hcells⟩ := hr.cells
  by_contra hne
  rw [hcells, Function.update_of_ne hne] at hlt
  exact Nat.lt_irrefl _ hlt

end Fresh

/-- In a run in which nobody uses an identifier twice, each identifier is bound to at most one
stream. What `Open` registers is the next identifier of its own parity and has not been used, and
what `handleOpen` registers is the announced identifier, of the other parity, and has not been
used. -/
theorem identifiers_unique {isClient : Bool} {ack : HelloAck} {events : List Event} {s : Session}
    (hrun : run (restrict freshIdentifiers Session.react) (newSession isClient ack) events =
      some s) :
    (∀ id, (s.cells id).length ≤ 1) ∧
    (∀ a s', s.step a = some s' → ∀ id, (s.cells id).length < (s'.cells id).length →
      s.cells id = [] ∧ id = s.nextID ∧ (id % 2 = 1 ↔ isClient = true)) ∧
    ∀ f s', restrict freshIdentifiers Session.react s (.frame f) = some s' → ∀ id,
      (s.cells id).length < (s'.cells id).length →
      s.cells id = [] ∧ id = f.streamID ∧ (id % 2 = 1 ↔ isClient = false) := by
  have hkept : ∀ {t t' : Session} {e : Event}, t.Tidy ∧ t.isClient = isClient →
      restrict freshIdentifiers Session.react t e = some t' →
      t'.Tidy ∧ t'.isClient = isClient := by
    rintro t t' e ⟨htidy, hclient⟩ hstep
    obtain ⟨hfresh, hreact⟩ := restrict_eq_some.mp hstep
    refine ⟨tidy_fresh htidy hfresh hreact, ?_⟩
    rcases react_books hreact with hkeeps | ⟨id, hreg⟩
    · exact hkeeps.isClient.trans hclient
    · exact hreg.isClient.trans hclient
  obtain ⟨htidy, hclient⟩ := @run_invariant _ _ _ (fun t => t.Tidy ∧ t.isClient = isClient)
    hkept _ _ _ ⟨tidy_new_session isClient ack, rfl⟩ hrun
  refine ⟨htidy.single, ?_, ?_⟩
  · intro a s' hstep id hlt
    rcases step_books hstep with hkeeps | ⟨-, hreg, -⟩
    · exact absurd hlt hkeeps.no_growth
    · obtain rfl := hreg.growth hlt
      have hparity := htidy.parity
      refine ⟨htidy.fresh _ hparity (UInt32.le_refl _), rfl, ?_⟩
      rw [Session.owns, hclient] at hparity
      cases isClient <;> simpa using hparity
  · intro f s' hstep id hlt
    obtain ⟨hfresh, hreact⟩ := restrict_eq_some.mp hstep
    simp only [Session.react, Option.ite_none_right_eq_some] at hreact
    rcases read_books hreact.2 with hkeeps | ⟨htype, hparity, hreg, -⟩
    · exact absurd hlt hkeeps.no_growth
    · obtain rfl := hreg.growth hlt
      refine ⟨by simpa [freshIdentifiers, htype] using hfresh, rfl, ?_⟩
      rw [Session.owns, hclient] at hparity
      cases isClient <;> simpa using hparity

/-- A client opens stream 1 and its peer opens stream 2; each is bound to one object. -/
theorem both_ends_open : ∃ s,
    run (restrict freshIdentifiers Session.react) (newSession true ⟨version, 8, 4, 16⟩)
      [.act (.start (.openStream [])), .act (.advance 0 .value), .frame ⟨.openStream, 2, []⟩] =
      some s ∧
    s.streams = [⟨2, 0⟩, ⟨1, 0⟩] ∧ ∀ id, (s.cells id).length ≤ 1 := by
  have hview : (run (restrict freshIdentifiers Session.react)
      (newSession true ⟨version, 8, 4, 16⟩)
      [.act (.start (.openStream [])), .act (.advance 0 .value),
        .frame ⟨.openStream, 2, []⟩]).map Session.streams = some [⟨2, 0⟩, ⟨1, 0⟩] := by
    decide +kernel
  obtain ⟨s, hrun, hstreams⟩ := Option.map_eq_some_iff.mp hview
  exact ⟨s, hrun, hstreams, (identifiers_unique hrun).1⟩

/-- A peer opens a stream, aborts it, and opens the same identifier again: the session registers a
second stream for it. -/
theorem identifier_opened_again : ∃ s s',
    run Session.react (newSession false ⟨version, 8, 4, 16⟩)
      [.frame ⟨.openStream, 1, []⟩, .act .dispatch, .act .dispatch, .frame ⟨.closeStream, 1, [0]⟩,
        .act .dispatch, .act .dispatch, .act .dispatch] = some s ∧
    (s.cells 1).length = 1 ∧ s.streams = [] ∧
    s.react (.frame ⟨.openStream, 1, []⟩) = some s' ∧
    (s'.cells 1).length = 2 ∧ s'.streams = [⟨1, 1⟩] := by
  have hview : ((run Session.react (newSession false ⟨version, 8, 4, 16⟩)
      [.frame ⟨.openStream, 1, []⟩, .act .dispatch, .act .dispatch,
        .frame ⟨.closeStream, 1, [0]⟩, .act .dispatch, .act .dispatch, .act .dispatch]).bind
      fun s => (s.react (.frame ⟨.openStream, 1, []⟩)).map fun s' =>
        [((s.cells 1).length, s.streams), ((s'.cells 1).length, s'.streams)]) =
      some [(1, []), (2, [⟨1, 1⟩])] := by
    decide +kernel
  obtain ⟨s, hrun, hrest⟩ := Option.bind_eq_some_iff.mp hview
  obtain ⟨s', hreact, hs'⟩ := Option.map_eq_some_iff.mp hrest
  simp only [List.cons.injEq, Prod.mk.injEq, and_true] at hs'
  obtain ⟨⟨hlength, hstreams⟩, hlength', hstreams'⟩ := hs'
  exact ⟨s, s', hrun, hlength, hstreams, hreact, hlength', hstreams'⟩

end AccessRelay.Mux
