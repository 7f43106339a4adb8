import TraderBackend.Api.MarkPrice

/-!
# The windows of granted hashes

`grantEventControlPassage` searches ten slots and overwrites the oldest one.  Seen from
outside, each handler has a window of the last ten hashes it was granted.

* `grantPassages` — a sequence of calls with their answers, on a fresh listener.
* `passageStep_spec` — what one call answers, and which window it leaves.
* `grantPassages_filter` — the calls for one handler do not notice the others.
* `passage_windows` — every answer of a sequence, and the slots after it.
-/

namespace TraderBackend

open RingBuffer (window)

/-- The arguments of `grantEventControlPassage`. -/
structure PassageCall where
  hash : String
  eventHandlerName : ControlledEventHandlerName
  deriving DecidableEq

/-- The calls made so far, with their answers. -/
abbrev PassageLog := List (PassageCall × Bool)

/-- One more call. -/
def passageStep (s : EventControl × PassageLog) (call : PassageCall) : EventControl × PassageLog :=
  let granted := grantEventControlPassage s.1 call.hash call.eventHandlerName
  (granted.1, s.2 ++ [(call, granted.2)])

/-- A sequence of calls on a fresh listener. -/
def grantPassages (calls : List PassageCall) : EventControl × PassageLog :=
  calls.foldl passageStep (EventControl.init, [])

/-- The hashes a handler was granted, oldest first. -/
def grantedTo (log : PassageLog) (eventHandlerName : ControlledEventHandlerName) : List String :=
  (log.filter fun e => e.2 && decide (e.1.eventHandlerName = eventHandlerName)).map
    fun e => e.1.hash

theorem grantPassages_append (calls : List PassageCall) (call : PassageCall) :
    grantPassages (calls ++ [call]) = passageStep (grantPassages calls) call := by
  rw [grantPassages, List.foldl_append]
  rfl

/-! ## One call -/

/-- Every ring holds the hashes granted for its handler. -/
def RingsHold (s : EventControl × PassageLog) : Prop :=
  ∀ name, (s.1 name).Holds (grantedTo s.2 name) ∧ (window 10 (grantedTo s.2 name)).Nodup

theorem grantedTo_append (log : PassageLog) (call : PassageCall) (granted : Bool)
    (name : ControlledEventHandlerName) :
    grantedTo (log ++ [(call, granted)]) name =
      if granted = true ∧ call.eventHandlerName = name then grantedTo log name ++ [call.hash]
      else grantedTo log name := by
  rw [grantedTo, List.filter_append, List.map_append, ← grantedTo]
  by_cases h : granted = true ∧ call.eventHandlerName = name
  · rw [if_pos h, List.filter_cons_of_pos (by simpa using h)]
    rfl
  · rw [if_neg h, List.filter_cons_of_neg (by simpa using h)]
    exact List.append_nil _

/-- **One call.**  It is granted if its hash is not in the window of its handler, and every window
moves on with what was granted. -/
theorem passageStep_spec {s : EventControl × PassageLog} (h : RingsHold s) (call : PassageCall) :
    (passageStep s call).2 =
        s.2 ++ [(call, decide (call.hash ∉ window 10 (grantedTo s.2 call.eventHandlerName)))] ∧
      RingsHold (passageStep s call) := by
  obtain ⟨hholds, -⟩ := h call.eventHandlerName
  have hoffer := RingBuffer.offer_eq hholds call.hash
  have hanswer : ((s.1 call.eventHandlerName).offer call.hash).2 =
      decide (call.hash ∉ window 10 (grantedTo s.2 call.eventHandlerName)) := by
    rw [hoffer]
    split
    · rename_i hmem
      rw [decide_eq_false (not_not_intro hmem)]
    · rename_i hmem
      rw [decide_eq_true hmem]
  refine ⟨by rw [passageStep, grantEventControlPassage, hanswer], fun name => ?_⟩
  simp only [passageStep, grantEventControlPassage, hanswer, grantedTo_append]
  by_cases hname : call.eventHandlerName = name
  · subst hname
    obtain ⟨hold, hnodup⟩ := h call.eventHandlerName
    have hgrant : (if decide (call.hash ∉ window 10 (grantedTo s.2 call.eventHandlerName)) = true ∧
          call.eventHandlerName = call.eventHandlerName then
        grantedTo s.2 call.eventHandlerName ++ [call.hash]
      else grantedTo s.2 call.eventHandlerName) =
        RingBuffer.grant 10 (grantedTo s.2 call.eventHandlerName) call.hash := by
      rw [RingBuffer.grant]
      split <;> split <;> simp_all
    rw [hgrant, Function.update_self]
    exact ⟨RingBuffer.holds_offer hold call.hash, RingBuffer.nodup_window_grant hnodup call.hash⟩
  · rw [Function.update_of_ne (Ne.symm hname), if_neg (fun hc => hname hc.2)]
    exact h name

/-! ## A sequence of calls -/

/-- The run lemma. -/
theorem ringsHold_grantPassages (calls : List PassageCall) : RingsHold (grantPassages calls) := by
  induction calls using List.reverseRecOn with
  | nil =>
    intro name
    exact ⟨RingBuffer.holds_empty (by decide), List.nodup_nil⟩
  | append_singleton calls call ih =>
    rw [grantPassages_append]
    exact (passageStep_spec ih call).2

/-- The calls for one handler are answered as if there were no others. -/
theorem grantPassages_filter (calls : List PassageCall) (name : ControlledEventHandlerName) :
    (grantPassages (calls.filter fun c => decide (c.eventHandlerName = name))).1 name =
        (grantPassages calls).1 name ∧
      (grantPassages (calls.filter fun c => decide (c.eventHandlerName = name))).2 =
        (grantPassages calls).2.filter fun e => decide (e.1.eventHandlerName = name) := by
  induction calls using List.reverseRecOn with
  | nil => exact ⟨rfl, rfl⟩
  | append_singleton calls call ih =>
    obtain ⟨hring, hlog⟩ := ih
    rw [List.filter_append, grantPassages_append]
    by_cases hname : call.eventHandlerName = name
    · subst hname
      rw [List.filter_cons_of_pos (by simp), List.filter_nil, grantPassages_append]
      simp only [passageStep, grantEventControlPassage, hring, hlog, Function.update_self,
        List.filter_append, true_and]
      rw [List.filter_cons_of_pos (by simp), List.filter_nil]
    · rw [List.filter_cons_of_neg (by simpa using hname), List.filter_nil, List.append_nil]
      simp only [passageStep, grantEventControlPassage, Function.update_of_ne (Ne.symm hname),
        List.filter_append]
      rw [List.filter_cons_of_neg (by simpa using hname), List.filter_nil, List.append_nil]
      exact ⟨hring, hlog⟩

/-- Every call gets an answer. -/
theorem map_fst_grantPassages (calls : List PassageCall) :
    (grantPassages calls).2.map Prod.fst = calls := by
  induction calls using List.reverseRecOn with
  | nil => rfl
  | append_singleton calls call ih =>
    rw [grantPassages_append, passageStep, List.map_append, ih]
    rfl

/-- **The ring buffer is a sliding window.**  In every sequence of calls, a call is granted exactly
if its hash is not among the last ten hashes granted to its handler before.  Afterwards the slots
of every handler hold the last ten hashes it was granted, or all of them if they are fewer, and
these are pairwise different.  The calls for one handler get the answers they get without the
others. -/
theorem passage_windows (calls : List PassageCall) :
    (grantPassages calls).2.map Prod.fst = calls ∧
    (∀ before call granted after, (grantPassages calls).2 = before ++ (call, granted) :: after →
      (granted = true ↔ call.hash ∉ window 10 (grantedTo before call.eventHandlerName))) ∧
    ∀ name, ((window 10 (grantedTo (grantPassages calls).2 name)).Perm
          (((grantPassages calls).1 name).slots.filterMap id) ∧
        (window 10 (grantedTo (grantPassages calls).2 name)).Nodup ∧
        (window 10 (grantedTo (grantPassages calls).2 name)).length =
          min (grantedTo (grantPassages calls).2 name).length 10) ∧
      (grantPassages calls).2.filter (fun e => decide (e.1.eventHandlerName = name)) =
        (grantPassages (calls.filter fun c => decide (c.eventHandlerName = name))).2 := by
  refine ⟨map_fst_grantPassages calls, ?_, fun name =>
    ⟨?_, (grantPassages_filter calls name).2.symm⟩⟩
  · induction calls using List.reverseRecOn with
    | nil =>
      intro before call granted after hlog
      cases before <;> cases hlog
    | append_singleton calls last ih =>
      intro before call granted after hlog
      rw [grantPassages_append,
        (passageStep_spec (ringsHold_grantPassages calls) last).1] at hlog
      rcases List.eq_nil_or_concat after with rfl | ⟨after, e, rfl⟩
      · -- the call is the last one
        obtain ⟨rfl, heq⟩ := List.append_inj' hlog rfl
        obtain ⟨rfl, rfl⟩ := Prod.mk.inj (List.cons.inj heq).1
        exact decide_eq_true_iff
      · rw [List.concat_eq_append, ← List.cons_append, ← List.append_assoc] at hlog
        exact ih before call granted after (List.append_inj' hlog rfl).1
  · obtain ⟨hholds, hnodup⟩ := ringsHold_grantPassages calls name
    exact ⟨RingBuffer.slots_perm hholds hnodup, hnodup, RingBuffer.length_window _ _⟩

end TraderBackend
