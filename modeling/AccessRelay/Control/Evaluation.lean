import AccessRelay.Control.Policy
import Mathlib.Data.List.MinMax

/-!
# A policy is the union of its rules

`Evaluate` goes through the rules once and carries the best decision so far. `evaluate_eq` says
what that comes to: of the rules that match, the first with the longest lifetime decides, and
without one the request is denied. Everything else about evaluation follows from there. Whether a
request is allowed and for how long does not depend on the order of the rules (`evaluate_union`);
the policy that the decision names does, where two rules tie (`evaluate_order_iff`).
-/

namespace AccessRelay.Control

open Encoding Go Proto

/-- The rule allows the request: it lists all three identifiers. -/
def Rule.Matches (rule : Rule) (userID deviceID resourceID : Bytes) : Prop :=
  rule.effect = .allow ∧ userID ∈ rule.principals ∧ deviceID ∈ rule.devices ∧
    resourceID ∈ rule.resources

instance (rule : Rule) (userID deviceID resourceID : Bytes) :
    Decidable (rule.Matches userID deviceID resourceID) :=
  inferInstanceAs (Decidable (_ ∧ _))

/-- The decision to allow under a rule. -/
def Rule.decision (rule : Rule) : Decision := ⟨true, rule.ttl, rule.policyID, reasonOK⟩

/-- Of the rules that match, the first with the longest lifetime. -/
noncomputable def mostGenerous (rules : List Rule) (userID deviceID resourceID : Bytes) :
    Option Rule :=
  (rules.filter (·.Matches userID deviceID resourceID)).argmax (·.ttl.toInt)

section Evaluate

variable {rules : List Rule} {userID deviceID resourceID : Bytes} {rule : Rule}

theorem matches_iff_covers : rule.Matches userID deviceID resourceID ↔
    rule.effect = .allow ∧ rule.covers userID deviceID resourceID = true := by
  simp [Rule.Matches, Rule.covers, and_assoc]

/-- The lifetime of a rule is positive, and at most the system maximum. -/
theorem ttl_range (rule : Rule) : 0 < rule.ttl ∧ rule.ttl ≤ maxGrantTTL := by
  unfold Rule.ttl
  split
  case isTrue => decide
  case isFalse hrange =>
      push Not at hrange
      exact ⟨Int64.not_le.mp hrange.1, Int64.not_lt.mp hrange.2⟩

/-- The loop of `Evaluate`, for the rules it has seen. -/
theorem evaluate_eq (hcomplete : userID ≠ [] ∧ deviceID ≠ [] ∧ resourceID ≠ []) :
    evaluate rules userID deviceID resourceID =
      (mostGenerous rules userID deviceID resourceID).elim denied Rule.decision := by
  unfold evaluate mostGenerous
  rw [if_neg (by simpa using hcomplete)]
  -- The loop goes from left to right, so the induction takes rules off the end.
  induction rules using List.reverseRecOn with
  | nil => rfl
  | append_singleton rules rule ih =>
      rw [List.foldl_concat, ih, List.filter_append]
      generalize rules.filter (·.Matches userID deviceID resourceID) = seen
      by_cases hmatches : rule.Matches userID deviceID resourceID
      · obtain ⟨hallow, hcovers⟩ := matches_iff_covers.mp hmatches
        have hlast : [rule].filter (·.Matches userID deviceID resourceID) = [rule] := by
          simp [hmatches]
        rw [hlast, List.argmax_concat, if_neg (by simp [hallow]), if_neg (by simp [hcovers])]
        cases seen.argmax (·.ttl.toInt) with
        | none => rfl
        | some best =>
            simp only [Option.elim_some, Rule.decision, Int64.lt_iff_toInt_lt, not_true_eq_false,
              false_or]
            split <;> rfl
      · have hlast : [rule].filter (·.Matches userID deviceID resourceID) = [] := by
          simp [hmatches]
        rw [hlast, List.append_nil]
        rw [matches_iff_covers, not_and] at hmatches
        split
        · rfl
        case isFalse hallow => rw [if_pos (hmatches (by simpa using hallow))]

/-- The rule matches, and no rule that matches has a longer lifetime. -/
structure Rule.Best (rule : Rule) (rules : List Rule) (userID deviceID resourceID : Bytes) :
    Prop where
  mem : rule ∈ rules
  allows : rule.Matches userID deviceID resourceID
  longest : ∀ other ∈ rules, other.Matches userID deviceID resourceID → other.ttl ≤ rule.ttl

theorem most_generous_best (h : mostGenerous rules userID deviceID resourceID = some rule) :
    rule.Best rules userID deviceID resourceID := by
  obtain ⟨hmem, hmatches⟩ := List.mem_filter.mp (List.argmax_mem h)
  refine ⟨hmem, of_decide_eq_true hmatches, ?_⟩
  intro other hother hothers
  have hle := List.le_of_mem_argmax (List.mem_filter.mpr ⟨hother, decide_eq_true hothers⟩) h
  exact Int64.le_iff_toInt_le.mpr hle

theorem most_generous_none (h : mostGenerous rules userID deviceID resourceID = none) :
    ∀ rule ∈ rules, ¬ rule.Matches userID deviceID resourceID := by
  intro rule hmem hmatches
  have hnone := List.filter_eq_nil_iff.mp (List.argmax_eq_none.mp h) rule hmem
  exact hnone (decide_eq_true hmatches)

/-- The request is complete, and some rule matches it. -/
def Permitted (rules : List Rule) (userID deviceID resourceID : Bytes) : Prop :=
  (userID ≠ [] ∧ deviceID ≠ [] ∧ resourceID ≠ []) ∧
    ∃ rule ∈ rules, rule.Matches userID deviceID resourceID

/-- What `Evaluate` returns. -/
theorem evaluate_cases (rules : List Rule) (userID deviceID resourceID : Bytes) :
    (¬ Permitted rules userID deviceID resourceID ∧
      evaluate rules userID deviceID resourceID = denied) ∨
    (Permitted rules userID deviceID resourceID ∧
      ∃ rule : Rule, rule.Best rules userID deviceID resourceID ∧
        evaluate rules userID deviceID resourceID = rule.decision) := by
  by_cases hcomplete : userID ≠ [] ∧ deviceID ≠ [] ∧ resourceID ≠ []
  · rw [evaluate_eq hcomplete]
    cases hbest : mostGenerous rules userID deviceID resourceID with
    | none =>
        refine .inl ⟨?_, rfl⟩
        intro hpermitted
        obtain ⟨-, rule, hmem, hmatches⟩ := hpermitted
        exact most_generous_none hbest rule hmem hmatches
    | some rule =>
        have hrule := most_generous_best hbest
        exact .inr ⟨⟨hcomplete, rule, hrule.mem, hrule.allows⟩, rule, hrule, rfl⟩
  · refine .inl ⟨fun h => hcomplete h.1, ?_⟩
    have hincomplete : userID = [] ∨ deviceID = [] ∨ resourceID = [] := by
      by_contra hnone
      push Not at hnone
      exact hcomplete hnone
    exact if_pos hincomplete

theorem allowed_iff : (evaluate rules userID deviceID resourceID).allowed = true ↔
    Permitted rules userID deviceID resourceID := by
  rcases evaluate_cases rules userID deviceID resourceID with
    ⟨hnot, hdenied⟩ | ⟨hpermitted, rule, -, hallowed⟩
  · rw [hdenied]
    exact iff_of_false Bool.false_ne_true hnot
  · rw [hallowed]
    exact iff_of_true rfl hpermitted

/-- More rules allow what fewer allowed, for as long at least. -/
theorem evaluate_mono {more : List Rule} (hsubset : rules ⊆ more)
    (h : (evaluate rules userID deviceID resourceID).allowed = true) :
    (evaluate more userID deviceID resourceID).allowed = true ∧
      (evaluate rules userID deviceID resourceID).maxTTL ≤
        (evaluate more userID deviceID resourceID).maxTTL := by
  have hpermitted := allowed_iff.mp h
  rcases evaluate_cases rules userID deviceID resourceID with ⟨hnot, -⟩ | ⟨-, rule, hrule, heq⟩
  · exact absurd hpermitted hnot
  rcases evaluate_cases more userID deviceID resourceID with ⟨hnot, -⟩ | ⟨-, best, hbest, heq'⟩
  · exact absurd ⟨hpermitted.1, rule, hsubset hrule.mem, hrule.allows⟩ hnot
  rw [heq, heq']
  exact ⟨rfl, hbest.longest rule (hsubset hrule.mem) hrule.allows⟩

/-- Two lists with the same rules come to the same, whatever the order and the repetitions. -/
theorem evaluate_congr {others : List Rule} (hsame : ∀ rule, rule ∈ rules ↔ rule ∈ others) :
    (evaluate rules userID deviceID resourceID).allowed =
        (evaluate others userID deviceID resourceID).allowed ∧
      (evaluate rules userID deviceID resourceID).maxTTL =
        (evaluate others userID deviceID resourceID).maxTTL := by
  have hpermitted : Permitted rules userID deviceID resourceID ↔
      Permitted others userID deviceID resourceID := by
    simp only [Permitted, hsame]
  have hallowed := Bool.eq_iff_iff.mpr ((allowed_iff.trans hpermitted).trans allowed_iff.symm)
  refine ⟨hallowed, ?_⟩
  cases hdecided : (evaluate rules userID deviceID resourceID).allowed with
  | true =>
      have hle := (evaluate_mono (fun rule h => (hsame rule).mp h) hdecided).2
      have hge := (evaluate_mono (fun rule h => (hsame rule).mpr h) (hallowed ▸ hdecided)).2
      exact Int64.le_antisymm hle hge
  | false =>
      have hnot : ¬ Permitted rules userID deviceID resourceID := by
        rw [← allowed_iff, hdecided]
        exact Bool.false_ne_true
      rcases evaluate_cases rules userID deviceID resourceID with ⟨-, heq⟩ | ⟨h, -⟩
      · rcases evaluate_cases others userID deviceID resourceID with ⟨-, heq'⟩ | ⟨h, -⟩
        · rw [heq, heq']
        · exact absurd (hpermitted.mpr h) hnot
      · exact absurd h hnot

/-- Only the set of the rules says which are best. -/
theorem Rule.Best.of_perm {others : List Rule} (h : rule.Best rules userID deviceID resourceID)
    (hperm : rules.Perm others) : rule.Best others userID deviceID resourceID where
  mem := hperm.mem_iff.mp h.mem
  allows := h.allows
  longest other hother := h.longest other (hperm.mem_iff.mpr hother)

/-- Of the best rules the first in the list decides. -/
theorem evaluate_head (hcomplete : userID ≠ [] ∧ deviceID ≠ [] ∧ resourceID ≠ [])
    (h : rule.Best (rule :: rules) userID deviceID resourceID) :
    evaluate (rule :: rules) userID deviceID resourceID = rule.decision := by
  have hfirst : mostGenerous (rule :: rules) userID deviceID resourceID = some rule := by
    unfold mostGenerous
    rw [List.filter_cons, if_pos (decide_eq_true h.allows), List.argmax_eq_some_iff]
    refine ⟨List.mem_cons_self, ?_, ?_⟩
    · intro other hother
      rcases List.mem_cons.mp hother with rfl | hrest
      · exact le_rfl
      · obtain ⟨hmem, hmatches⟩ := List.mem_filter.mp hrest
        have hle := h.longest other (List.mem_cons_of_mem _ hmem) (of_decide_eq_true hmatches)
        exact Int64.le_iff_toInt_le.mp hle
    · intro other _ _
      rw [List.idxOf_cons_self]
      exact Nat.zero_le _
  rw [evaluate_eq hcomplete, hfirst, Option.elim_some]

end Evaluate

/-- `Evaluate` allows a request exactly if it is complete and some rule with effect allow lists all
three identifiers. The lifetime is then the longest of the rules that match, within the system
maximum, and the policy it names is one of those that attain it. The order of the rules and
repetitions make no difference to either, and more rules never take anything away. -/
theorem evaluate_union (rules : List Rule) (userID deviceID resourceID : Bytes) :
    ((evaluate rules userID deviceID resourceID).allowed = true ↔
      (userID ≠ [] ∧ deviceID ≠ [] ∧ resourceID ≠ []) ∧
        ∃ rule ∈ rules, rule.Matches userID deviceID resourceID) ∧
    ((evaluate rules userID deviceID resourceID).allowed = true →
      0 < (evaluate rules userID deviceID resourceID).maxTTL ∧
      (evaluate rules userID deviceID resourceID).maxTTL ≤ maxGrantTTL ∧
      (∀ rule ∈ rules, rule.Matches userID deviceID resourceID →
        (if rule.maxTTL ≤ 0 ∨ maxGrantTTL < rule.maxTTL then maxGrantTTL else rule.maxTTL) ≤
          (evaluate rules userID deviceID resourceID).maxTTL) ∧
      ∃ rule ∈ rules, rule.Matches userID deviceID resourceID ∧
        (if rule.maxTTL ≤ 0 ∨ maxGrantTTL < rule.maxTTL then maxGrantTTL else rule.maxTTL) =
          (evaluate rules userID deviceID resourceID).maxTTL ∧
        rule.policyID = (evaluate rules userID deviceID resourceID).policyID) ∧
    (∀ others : List Rule, (∀ rule, rule ∈ rules ↔ rule ∈ others) →
      (evaluate rules userID deviceID resourceID).allowed =
          (evaluate others userID deviceID resourceID).allowed ∧
        (evaluate rules userID deviceID resourceID).maxTTL =
          (evaluate others userID deviceID resourceID).maxTTL) ∧
    (∀ more : List Rule, rules ⊆ more →
      (evaluate rules userID deviceID resourceID).allowed = true →
      (evaluate more userID deviceID resourceID).allowed = true ∧
        (evaluate rules userID deviceID resourceID).maxTTL ≤
          (evaluate more userID deviceID resourceID).maxTTL) := by
  refine ⟨allowed_iff, ?_, fun others => evaluate_congr, fun more => evaluate_mono⟩
  intro hallowed
  rcases evaluate_cases rules userID deviceID resourceID with ⟨hnot, -⟩ | ⟨-, rule, hrule, heq⟩
  · exact absurd (allowed_iff.mp hallowed) hnot
  rw [heq]
  obtain ⟨hpos, hmax⟩ := ttl_range rule
  exact ⟨hpos, hmax, hrule.longest, rule, hrule.mem, hrule.allows, rfl, rfl⟩

/-- With distinct policy identifiers, `Evaluate` returns the same decision for every order of the
rules exactly if no two rules that match the request share the longest lifetime. Lifetimes are
compared within the system maximum, so that two rules above it tie. -/
theorem evaluate_order_iff (rules : List Rule) (userID deviceID resourceID : Bytes)
    (hdistinct : (rules.map (·.policyID)).Nodup) :
    (∀ others : List Rule, rules.Perm others →
      evaluate others userID deviceID resourceID = evaluate rules userID deviceID resourceID) ↔
    ((userID ≠ [] ∧ deviceID ≠ [] ∧ resourceID ≠ []) →
      ∀ one two : Rule, one.Best rules userID deviceID resourceID →
        two.Best rules userID deviceID resourceID → one = two) := by
  constructor
  · intro hsame hcomplete one two hone htwo
    -- A best rule that is moved to the front decides, so all best rules give one decision.
    have hdecides : ∀ rule : Rule, rule.Best rules userID deviceID resourceID →
        rule.decision = evaluate rules userID deviceID resourceID := by
      intro rule hrule
      have hfront := List.perm_cons_erase hrule.mem
      rw [← hsame _ hfront]
      exact (evaluate_head hcomplete (hrule.of_perm hfront)).symm
    have hpolicy : one.decision.policyID = two.decision.policyID := by
      rw [hdecides one hone, hdecides two htwo]
    exact List.inj_on_of_nodup_map hdistinct hone.mem htwo.mem hpolicy
  · intro hunique others hperm
    rcases evaluate_cases rules userID deviceID resourceID with
      ⟨hnot, heq⟩ | ⟨hpermitted, one, hone, heq⟩ <;>
    rcases evaluate_cases others userID deviceID resourceID with
      ⟨hnot', heq'⟩ | ⟨hpermitted', two, htwo, heq'⟩
    · rw [heq, heq']
    · exact absurd ⟨hpermitted'.1, two, hperm.mem_iff.mpr htwo.mem, htwo.allows⟩ hnot
    · exact absurd ⟨hpermitted.1, one, hperm.mem_iff.mp hone.mem, hone.allows⟩ hnot'
    · rw [heq, heq', hunique hpermitted.1 one two hone (htwo.of_perm hperm.symm)]

/-- A rule for one user, one device and one resource. -/
def sshRule (policyID : Bytes) (maxTTL : Duration) : Rule :=
  ⟨policyID, [ascii "alice"], [ascii "panel"], [ascii "ssh"], maxTTL, .allow⟩

/-- Two rules of different lifetimes: the longer one is named in either order. -/
theorem evaluate_order_two :
    ([sshRule (ascii "short") second, sshRule (ascii "long") minute].map (·.policyID)).Nodup ∧
    ∀ others : List Rule,
      [sshRule (ascii "short") second, sshRule (ascii "long") minute].Perm others →
      evaluate others (ascii "alice") (ascii "panel") (ascii "ssh") =
        ⟨true, minute, ascii "long", reasonOK⟩ := by
  refine ⟨by decide, ?_⟩
  intro others hperm
  have hlong : evaluate [sshRule (ascii "short") second, sshRule (ascii "long") minute]
      (ascii "alice") (ascii "panel") (ascii "ssh") =
        ⟨true, minute, ascii "long", reasonOK⟩ := by decide
  rw [← hlong]
  refine (evaluate_order_iff _ _ _ _ (by decide)).mpr ?_ others hperm
  intro _ one two hone htwo
  have hlongest : ∀ rule : Rule, rule.Best [sshRule (ascii "short") second,
      sshRule (ascii "long") minute] (ascii "alice") (ascii "panel") (ascii "ssh") →
      rule = sshRule (ascii "long") minute := by
    intro rule hrule
    have hmem := hrule.mem
    simp only [List.mem_cons, List.not_mem_nil, or_false] at hmem
    rcases hmem with rfl | rfl
    · have hle := hrule.longest (sshRule (ascii "long") minute) (by decide) (by decide)
      exact absurd hle (by decide)
    · rfl
  rw [hlongest one hone, hlongest two htwo]

/-- Two rules above the system maximum: the one that stands first is named. -/
theorem tie_named_by_order :
    ([sshRule (ascii "ops") hour, sshRule (ascii "support") (2 * hour)].map
      (·.policyID)).Nodup ∧
    [sshRule (ascii "ops") hour, sshRule (ascii "support") (2 * hour)].Perm
      [sshRule (ascii "support") (2 * hour), sshRule (ascii "ops") hour] ∧
    evaluate [sshRule (ascii "ops") hour, sshRule (ascii "support") (2 * hour)]
      (ascii "alice") (ascii "panel") (ascii "ssh") =
        ⟨true, maxGrantTTL, ascii "ops", reasonOK⟩ ∧
    evaluate [sshRule (ascii "support") (2 * hour), sshRule (ascii "ops") hour]
      (ascii "alice") (ascii "panel") (ascii "ssh") =
        ⟨true, maxGrantTTL, ascii "support", reasonOK⟩ := by
  refine ⟨by decide, List.Perm.swap _ _ _, by decide, by decide⟩

/-- A short rule, then a longer one. -/
example :
    let rule (id : String) (ttl : Duration) : Rule :=
      ⟨ascii id, [ascii "alice"], [ascii "panel"], [ascii "ssh"], ttl, .allow⟩
    let rules := [rule "short" second, rule "capped" hour, rule "unset" 0]
    evaluate rules (ascii "alice") (ascii "panel") (ascii "ssh") =
      ⟨true, maxGrantTTL, ascii "capped", reasonOK⟩ := by decide

end AccessRelay.Control
