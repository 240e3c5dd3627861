import Barqium.Native.CodeModeGate
import Mathlib.Data.List.Induction
import Mathlib.Order.Bounds.Basic

/-!
# Progressive disclosure

The tier of a session is the highest one that was confirmed since the session was last removed.
The gate and the registry number the tiers on their own; both numberings follow the order of the
tiers, so a session that advances keeps every tool that it sees.

## Key results

- `confirmed_concat_iff`: what one more operation confirms
- `isGreatest_tier`: the tier of a session after a run
- `onlyWidens`: with the tools that it shows
-/

namespace Barqium.Native

/-! ## The order of the tiers -/

/-- Read-only, then limited, then full. -/
instance : LinearOrder ToolTier :=
  LinearOrder.lift' (fun t => [ToolTier.readOnly, .limited, .full].idxOf t) (by
    intro a b h
    cases a <;> cases b <;> first | rfl | exact absurd h (by decide))

private theorem readOnly_le (t : ToolTier) : .readOnly ≤ t := by
  cases t <;> decide

theorem tierOrd_lt_iff {a b : ToolTier} : tierOrd a < tierOrd b ↔ a < b := by
  cases a <;> cases b <;> decide

theorem tierLevel_le_iff {a b : ToolTier} : tierLevel a ≤ tierLevel b ↔ a ≤ b := by
  cases a <;> cases b <;> decide

/-- The wider of two tiers is their maximum. -/
private theorem maxTier_eq_max (a b : ToolTier) : maxTier a b = max a b := by
  unfold maxTier
  by_cases h : a < b
  · rw [if_pos (tierOrd_lt_iff.mpr h), max_eq_right h.le]
  · rw [if_neg (fun hord => h (tierOrd_lt_iff.mp hord)), max_eq_left (not_lt.mp h)]

/-! ## Runs -/

def GateOp.session : GateOp → String
  | .advance sessionId _ => sessionId
  | .remove sessionId => sessionId

namespace CodeModeGate

/-- Advancing a session widens its tier to the given one. -/
private theorem tier_advance (gate : CodeModeGate) (s : String) (t : ToolTier) :
    (gate.step (.advance s t)).tier s = max (gate.tier s) t := by
  rw [step, advance, tier, Finmap.lookup_insert, Option.getD_some, maxTier_eq_max]
  rfl

/-- A session that was removed begins again. -/
private theorem tier_remove (gate : CodeModeGate) (s : String) :
    (gate.step (.remove s)).tier s = .readOnly := by
  rw [step, remove, tier, Finmap.lookup_erase, Option.getD_none]

/-- An operation on another session. -/
private theorem tier_step_of_ne (gate : CodeModeGate) {op : GateOp} {s : String}
    (h : op.session ≠ s) :
    (gate.step op).tier s = gate.tier s := by
  have hlookup : (gate.step op).sessions.lookup s = gate.sessions.lookup s := by
    cases op with
    | advance s' t => exact Finmap.lookup_insert_of_ne _ h.symm
    | remove s' => exact Finmap.lookup_erase_ne h.symm
  rw [tier, tier, hlookup]

theorem run_concat (ops : List GateOp) (op : GateOp) : run (ops ++ [op]) = (run ops).step op :=
  List.foldl_concat _ _ op ops

/-- The session was advanced to this tier since it was last removed. -/
def Confirmed (ops : List GateOp) (s : String) (t : ToolTier) : Prop :=
  ∃ before after, ops = before ++ .advance s t :: after ∧ .remove s ∉ after

/-- Nothing is confirmed at first. -/
private theorem not_confirmed_nil (s : String) (t : ToolTier) : ¬ Confirmed [] s t := by
  rintro ⟨before, after, h, -⟩
  exact absurd h.symm (by simp)

/-- A tier is confirmed by the last operation, or stays so if that does not remove the session. -/
theorem confirmed_concat_iff {ops : List GateOp} {op : GateOp} {s : String} {t : ToolTier} :
    Confirmed (ops ++ [op]) s t ↔ op = .advance s t ∨ Confirmed ops s t ∧ op ≠ .remove s := by
  constructor
  · rintro ⟨before, after, hsplit, hremove⟩
    -- the confirmation is the last operation or an earlier one
    cases after using List.reverseRecOn with
    | nil => exact .inl (List.cons.inj (List.append_inj' hsplit rfl).2).1
    | append_singleton after last =>
      rw [← List.cons_append, ← List.append_assoc] at hsplit
      obtain ⟨rfl, hlast⟩ := List.append_inj' hsplit rfl
      obtain rfl := (List.cons.inj hlast).1
      refine .inr ⟨⟨before, after, rfl, fun h => hremove (List.mem_append_left _ h)⟩, ?_⟩
      rintro rfl
      exact hremove (by simp)
  · rintro (rfl | ⟨⟨before, after, rfl, hremove⟩, hop⟩)
    · exact ⟨ops, [], rfl, List.not_mem_nil⟩
    · refine ⟨before, after ++ [op], by simp, fun h => ?_⟩
      rcases List.mem_append.mp h with hafter | hlast
      · exact hremove hafter
      · exact hop (List.mem_singleton.mp hlast).symm

/-- A confirmed tier stays so while the session is not removed. -/
theorem Confirmed.append {before after : List GateOp} {s : String} {t : ToolTier}
    (h : Confirmed before s t) (hremove : .remove s ∉ after) : Confirmed (before ++ after) s t := by
  obtain ⟨front, back, rfl, hback⟩ := h
  refine ⟨front, back ++ after, by simp, fun hmem => ?_⟩
  rcases List.mem_append.mp hmem with hold | hnew
  · exact hback hold
  · exact hremove hnew

/-! ## Tiers -/

/-- The tier is the highest that was confirmed, and read-only if none was. -/
theorem isGreatest_tier (ops : List GateOp) (s : String) :
    IsGreatest {t | t = .readOnly ∨ Confirmed ops s t} ((run ops).tier s) := by
  -- the tier after each operation
  induction ops using List.reverseRecOn with
  | nil =>
    refine ⟨.inl rfl, fun t ht => ?_⟩
    rcases ht with rfl | ht
    · exact le_rfl
    · exact absurd ht (not_confirmed_nil s t)
  | append_singleton ops op ih =>
    obtain ⟨hmem, hupper⟩ := ih
    rw [run_concat]
    by_cases hop : op.session = s
    · cases op with
      | advance s' target =>
        obtain rfl : s' = s := hop
        rw [tier_advance]
        constructor
        · -- the new tier is the old one or the target
          rcases max_choice ((run ops).tier s') target with hold | htarget
          · rw [hold]
            exact hmem.imp_right fun h => confirmed_concat_iff.mpr (.inr ⟨h, by simp⟩)
          · rw [htarget]
            exact .inr (confirmed_concat_iff.mpr (.inl rfl))
        · rintro t (rfl | ht)
          · exact readOnly_le _
          · rcases confirmed_concat_iff.mp ht with hnew | ⟨hold, -⟩
            · cases hnew
              exact le_max_right _ _
            · exact (hupper (.inr hold)).trans (le_max_left _ _)
      -- a removed session is read-only again
      | remove s' =>
        obtain rfl : s' = s := hop
        rw [tier_remove]
        refine ⟨.inl rfl, ?_⟩
        rintro t (rfl | ht)
        · exact le_rfl
        · rcases confirmed_concat_iff.mp ht with hnew | ⟨-, hne⟩
          · cases hnew
          · exact absurd rfl hne
    · rw [tier_step_of_ne _ hop]
      -- an operation on another session confirms nothing here
      have hsame : ∀ t, Confirmed (ops ++ [op]) s t ↔ Confirmed ops s t := by
        intro t
        rw [confirmed_concat_iff]
        constructor
        · rintro (rfl | ⟨h, -⟩)
          · exact absurd rfl hop
          · exact h
        · exact fun h => .inr ⟨h, fun hremove => hop (hremove ▸ rfl)⟩
      simp only [hsame]
      exact ⟨hmem, hupper⟩

/-- Until its session is removed, a tier does not fall. -/
private theorem tier_le_of_append {before after : List GateOp} {s : String}
    (h : .remove s ∉ after) :
    (run before).tier s ≤ (run (before ++ after)).tier s := by
  refine (isGreatest_tier (before ++ after) s).2 ?_
  exact (isGreatest_tier before s).1.imp_right fun hconfirmed => hconfirmed.append h

/-- A higher tier shows every tool that a lower one shows, in whatever order the registry is
    walked. -/
theorem visibleTools_mono (registry : ToolRegistry)
    (values values' : HashMap.Values registry.entries) {low high : ToolTier}
    (h : low ≤ high) (roles : List String) {e : RegistryEntry}
    (he : e ∈ registry.visibleTools values low roles) :
    e ∈ registry.visibleTools values' high roles := by
  simp only [ToolRegistry.visibleTools, List.mem_filter, decide_eq_true_eq] at he ⊢
  obtain ⟨⟨hmem, htier⟩, hallowed⟩ := he
  refine ⟨⟨?_, htier.trans (tierLevel_le_iff.mpr h)⟩, hallowed⟩
  exact (HashMap.mem_values values').mpr ((HashMap.mem_values values).mp hmem)

/-- What disclosure does in the runs of a gate. -/
structure OnlyWidens (ops : List GateOp) (s : String) : Prop where
  highest : IsGreatest {t | t = .readOnly ∨ Confirmed ops s t} ((run ops).tier s)
  /-- `advance` returns the tier that the session then has. -/
  returned : ∀ t, ((run ops).advance s t).1 = ((run ops).advance s t).2.tier s
  others : ∀ op : GateOp, op.session ≠ s → ((run ops).step op).tier s = (run ops).tier s
  tools : ∀ before after, ops = before ++ after → .remove s ∉ after →
    ∀ (registry : ToolRegistry) (values values' : HashMap.Values registry.entries)
      (roles : List String), ∀ e ∈ registry.visibleTools values ((run before).tier s) roles,
        e ∈ registry.visibleTools values' ((run ops).tier s) roles

/-- In every run the tier of every session is the highest confirmed one, and shows all tools that
    it showed since the session was last removed. -/
theorem onlyWidens (ops : List GateOp) (s : String) : OnlyWidens ops s where
  highest := isGreatest_tier ops s
  returned t := by
    rw [advance, tier, Finmap.lookup_insert]
    rfl
  others op hop := tier_step_of_ne (run ops) hop
  tools := by
    rintro before after rfl hremove registry values values' roles e he
    exact visibleTools_mono registry values values' (tier_le_of_append hremove) roles he

end CodeModeGate

end Barqium.Native
