import GovAI.Adapters.StreamRun
import GovAI.Json.Extension

/-!
# Truncated and corrupted streams

What `assistantMessageFromStream` makes of a part of a stream, or of a stream with one structural frame
repeated, lost or moved.  A cut leaves the events before it and at most a broken payload behind them
(`parseSseEvents_cut`).  An accepted stream has one start and one end of the message and of each block
(`Complete`), and its message depends on the order of the events of each block alone.
-/

namespace GovAI

/-! ## Cutting a text -/

lemma sseLines_ne_nil (cs : List Char) : sseLines cs ≠ [] := by
  induction cs using sseLines.induct with
  | case1 => simp [sseLines]
  | case2 => simp [sseLines]
  | case3 => simp [sseLines]
  | case4 c cs h1 h2 heq ih => exact absurd heq ih
  | case5 c cs h1 h2 line lines heq ih =>
    rw [sseLines.eq_4 c cs h1 h2, heq]
    simp

/-- **Cutting a text in two leaves the lines before the cut**, and of the line in which the cut falls
a beginning, or the line with the first half of its ending. -/
lemma sseLines_cut (cs rest : List Char) :
    ∃ before last line behind, sseLines cs = before ++ [last] ∧
      sseLines (cs ++ rest) = before ++ line :: behind ∧
      (last <+: line ∨ last = line ++ ['\r']) := by
  induction cs using sseLines.induct with
  | case1 =>
    obtain ⟨line, behind, hlines⟩ := List.exists_cons_of_ne_nil (sseLines_ne_nil rest)
    exact ⟨[], [], line, behind, rfl, hlines, .inl (List.nil_prefix ..)⟩
  | case2 cs ih =>
    obtain ⟨before, last, line, behind, hcs, hall, hline⟩ := ih
    refine ⟨[] :: before, last, line, behind, ?_, ?_, hline⟩
    · rw [sseLines, hcs]
      rfl
    · rw [List.cons_append, List.cons_append, sseLines, hall]
      rfl
  | case3 cs ih =>
    obtain ⟨before, last, line, behind, hcs, hall, hline⟩ := ih
    refine ⟨[] :: before, last, line, behind, ?_, ?_, hline⟩
    · rw [sseLines, hcs]
      rfl
    · rw [List.cons_append, sseLines, hall]
      rfl
  | case4 c cs h1 h2 heq ih => exact absurd heq (sseLines_ne_nil cs)
  | case5 c cs h1 h2 first lines heq ih =>
    by_cases hending : c = '\r' ∧ cs = [] ∧ ∃ rest', rest = '\n' :: rest'
    · obtain ⟨rfl, rfl, rest', rfl⟩ := hending
      exact ⟨[], ['\r'], [], sseLines rest', rfl, by rw [List.singleton_append, sseLines]; rfl,
        .inr rfl⟩
    · have h1' : ∀ cs', c = '\r' → cs ++ rest = '\n' :: cs' → False := by
        intro cs' hc hcs'
        rcases cs with _ | ⟨d, ds⟩
        · exact hending ⟨hc, rfl, cs', hcs'⟩
        · exact h1 ds hc (by rw [(List.cons.inj hcs').1])
      obtain ⟨before, last, line, behind, hcs, hall, hline⟩ := ih
      rw [List.cons_append, sseLines.eq_4 c cs h1 h2, sseLines.eq_4 c _ h1' h2, hcs, hall]
      rcases before with _ | ⟨b, before⟩
      · refine ⟨[], c :: last, c :: line, behind, rfl, rfl, ?_⟩
        rcases hline with hprefix | rfl
        · exact .inl (List.cons_prefix_cons.mpr ⟨rfl, hprefix⟩)
        · exact .inr rfl
      · exact ⟨(c :: b) :: before, last, line, behind, rfl, rfl, hline⟩

/-! ## Cutting a payload -/

/-- White space of JSON is white space of the language. -/
lemma isJsSpace_of_isJsonSpace {c : Char} (h : isJsonSpace c = true) : isJsSpace c = true := by
  simp only [isJsonSpace, Bool.or_eq_true, decide_eq_true_eq] at h
  rcases h with ((rfl | rfl) | rfl) | rfl <;> decide

/-- The end of a trimmed text is no white space. -/
lemma skipSpace_ne_nil_of_jsTrim {p q cs : List Char} (h : jsTrim cs = p ++ q) (hq : q ≠ []) :
    skipSpace q ≠ [] := by
  intro hspace
  obtain rfl | ⟨q, c, rfl⟩ := List.eq_nil_or_concat' q
  · exact hq rfl
  · have hc : isJsSpace c = true := isJsSpace_of_isJsonSpace
      (List.dropWhile_eq_nil_iff.mp hspace c (by simp))
    have hself : (p ++ (q ++ [c])).rdropWhile isJsSpace = p ++ (q ++ [c]) := by
      rw [← h, jsTrim, List.rdropWhile_idempotent]
    rw [← List.append_assoc, List.rdropWhile_concat_pos _ _ _ hc] at hself
    have hlen := (List.rdropWhile_prefix isJsSpace (p ++ q)).length_le
    rw [hself, List.length_append, List.length_singleton] at hlen
    omega

/-- Trimming the end of a longer text leaves more. -/
lemma rdropWhile_prefix_append {α : Type} (p : α → Bool) (l t : List α) :
    l.rdropWhile p <+: (l ++ t).rdropWhile p := by
  induction t using List.reverseRecOn with
  | nil => rw [List.append_nil]
  | append_singleton t x ih =>
    rw [← List.append_assoc, List.rdropWhile_concat]
    split
    · exact ih
    · rw [List.append_assoc]
      exact (List.rdropWhile_prefix p l).trans (List.prefix_append ..)

/-- A beginning of a text, trimmed, is a beginning of the trimmed text. -/
lemma jsTrim_prefix (l t : List Char) : jsTrim l <+: jsTrim (l ++ t) := by
  unfold jsTrim
  rw [List.dropWhile_append]
  split
  · next h =>
    rw [List.isEmpty_iff.mp h]
    exact List.nil_prefix ..
  · exact rdropWhile_prefix_append ..

/-- A carriage return at the end of a line is trimmed. -/
lemma jsTrim_concat_return (l : List Char) : jsTrim (l ++ ['\r']) = jsTrim l := by
  unfold jsTrim
  rw [List.dropWhile_append]
  split
  · next h =>
    rw [List.isEmpty_iff.mp h]
    rfl
  · exact List.rdropWhile_concat_pos _ _ _ (by decide)

/-- What a line begins with the line begins with. -/
lemma isPrefixOf_append {p l : List Char} (t : List Char) (h : p.isPrefixOf l = true) :
    p.isPrefixOf (l ++ t) = true := by
  rw [List.isPrefixOf_iff_prefix] at h ⊢
  exact h.trans (List.prefix_append ..)

/-- A carriage return does not complete the name of the field. -/
lemma dataPayload_concat_return (line : List Char) :
    dataPayload (line ++ ['\r']) = dataPayload line := by
  unfold dataPayload
  by_cases hdata : "data:".toList.isPrefixOf line = true
  · have hlen : 5 ≤ line.length := (List.isPrefixOf_iff_prefix.mp hdata).length_le
    rw [if_pos (isPrefixOf_append _ hdata), if_pos hdata, List.drop_append_of_le_length hlen,
      jsTrim_concat_return]
  · rw [if_neg hdata, if_neg]
    intro h
    obtain ⟨t, ht⟩ := List.isPrefixOf_iff_prefix.mp h
    rcases List.eq_nil_or_concat' t with rfl | ⟨t, c, rfl⟩
    · rw [List.append_nil] at ht
      have hlast := congrArg List.getLast? ht
      rw [List.getLast?_concat] at hlast
      exact absurd hlast (by decide)
    · rw [← List.append_assoc] at ht
      obtain ⟨hline, -⟩ := List.append_inj' ht rfl
      exact hdata (List.isPrefixOf_iff_prefix.mpr ⟨t, hline⟩)

/-- The payload of the beginning of a line: none, the payload of the line, or a text that more is to
follow. -/
lemma dataPayload_cut (last t : List Char) :
    dataPayload last = none ∨ dataPayload last = dataPayload (last ++ t) ∨
      ∃ p q, dataPayload last = some p ∧ p ≠ [] ∧ skipSpace q ≠ [] ∧
        (p ++ q = "[DONE]".toList ∨ dataPayload (last ++ t) = some (p ++ q)) := by
  unfold dataPayload
  by_cases hdata : "data:".toList.isPrefixOf last = true
  · have hlen : 5 ≤ last.length := (List.isPrefixOf_iff_prefix.mp hdata).length_le
    rw [if_pos hdata, if_pos (isPrefixOf_append _ hdata), List.drop_append_of_le_length hlen]
    obtain ⟨q, hq⟩ := jsTrim_prefix (last.drop 5) t
    by_cases hnone : jsTrim (last.drop 5) = [] ∨ jsTrim (last.drop 5) = "[DONE]".toList
    · exact .inl (if_pos hnone)
    · have hne : jsTrim (last.drop 5) ≠ [] := fun h => hnone (.inl h)
      by_cases hqnil : q = []
      · subst hqnil
        rw [List.append_nil] at hq
        refine .inr (.inl ?_)
        rw [← hq]
      · refine .inr (.inr ⟨jsTrim (last.drop 5), q, if_neg hnone, hne,
          skipSpace_ne_nil_of_jsTrim hq.symm hqnil, ?_⟩)
        by_cases hdone : jsTrim (last.drop 5) ++ q = "[DONE]".toList
        · exact .inl hdone
        · refine .inr ?_
          simp only [← hq]
          rw [if_neg]
          rintro (h | h)
          · exact hne (List.append_eq_nil_iff.mp h).1
          · exact hdone h
  · exact .inl (if_neg hdata)

namespace Messages

variable {number : List Char → Option JsonNumber}

/-! ## Cutting a stream -/

lemma parsePayload_eq_ok_iff {payload : List Char} {v : JsonValue} :
    parsePayload number payload = .ok v ↔ jsonParse number payload = some v := by
  unfold parsePayload
  cases jsonParse number payload <;> simp

/-- A stream is parsed when each of its payloads is. -/
lemma parseSseEvents_eq_ok_iff {sseText : List Char} {events : List JsonValue} :
    parseSseEvents number sseText = .ok events ↔
      (dataPayloads sseText).map (jsonParse number) = events.map some := by
  simp only [parseSseEvents, except_mapM_eq_ok_iff, parsePayload_eq_ok_iff]
  rw [← List.forall₂_eq_eq_eq, List.forall₂_map_left_iff, List.forall₂_map_right_iff]

/-- All calls of a partial function on a list have results. -/
lemma map_eq_map_some_iff {α β : Type} {f : α → Option β} {l : List α} {r : List β} :
    l.map f = r.map some ↔ (∀ a ∈ l, (f a).isSome = true) ∧ l.filterMap f = r := by
  induction l generalizing r with
  | nil => cases r <;> simp
  | cons a l ih =>
    cases hf : f a with
    | none => cases r <;> simp [hf]
    | some b => cases r <;> simp [hf, ih, and_left_comm]

/-- A stream is refused for a payload that is not JSON. -/
lemma parseSseEvents_of_eq_none {sseText payload : List Char} (hmem : payload ∈ dataPayloads sseText)
    (hnone : jsonParse number payload = none) :
    parseSseEvents number sseText = .error (.unreplayable "sse_data_not_json") := by
  have hyields : Yields (· = StreamFailure.unreplayable "sse_data_not_json") (fun _ => True)
      (parseSseEvents number sseText) := by
    refine (yields_mapM (Q := fun _ => True) fun payload _ => ?_).mono fun _ _ => trivial
    unfold parsePayload
    split
    · exact trivial
    · rfl
  cases h : parseSseEvents number sseText with
  | error e => rw [hyields.of_error h]
  | ok events =>
    rw [parseSseEvents_eq_ok_iff] at h
    have hnil : none ∈ events.map some := h ▸ List.mem_map.mpr ⟨payload, hmem, hnone⟩
    simp at hnil

/-- A beginning of the sentinel is not JSON. -/
lemma jsonParse_sentinel_cut {p q : List Char} (h : p ++ q = "[DONE]".toList) (hp : p ≠ [])
    (hq : q ≠ []) : jsonParse number p = none := by
  have hlen := congrArg List.length h
  have hsix : "[DONE]".toList.length = 6 := rfl
  have hp' := List.length_pos_iff.mpr hp
  have hq' := List.length_pos_iff.mpr hq
  rw [List.length_append, hsix] at hlen
  have htake : p = "[DONE]".toList.take p.length := by
    rw [← h, List.take_left]
  have hcases : p.length = 1 ∨ p.length = 2 ∨ p.length = 3 ∨ p.length = 4 ∨ p.length = 5 := by omega
  rw [htake]
  rcases hcases with h | h | h | h | h <;> rw [h] <;> rfl

/-- **What is parsed of a cut stream is a beginning of its events**, unless the cut falls into a
payload. -/
theorem parseSseEvents_cut {cs rest : List Char} {events : List JsonValue}
    (h : parseSseEvents number (cs ++ rest) = .ok events) (hnum : ∀ e ∈ events, ∀ x, e ≠ .num x) :
    parseSseEvents number cs = .error (.unreplayable "sse_data_not_json") ∨
      ∃ events', parseSseEvents number cs = .ok events' ∧ events' <+: events := by
  obtain ⟨before, last, line, behind, hcs, hall, hline⟩ := sseLines_cut cs rest
  rw [parseSseEvents_eq_ok_iff, dataPayloads, hall, List.filterMap_append, List.map_append] at h
  obtain ⟨events₁, events₂, rfl, h₁, h₂⟩ := List.map_eq_append_iff.mp h.symm
  have hpayloads : dataPayloads cs = before.filterMap dataPayload ++ (dataPayload last).toList := by
    rw [dataPayloads, hcs, List.filterMap_append]
    cases hlast : dataPayload last <;> simp [hlast]
  -- the last payload of the cut stream is missing, whole or broken
  have hpayload : dataPayload last = none ∨ dataPayload last = dataPayload line ∨
      ∃ p q, dataPayload last = some p ∧ p ≠ [] ∧ skipSpace q ≠ [] ∧
        (p ++ q = "[DONE]".toList ∨ dataPayload line = some (p ++ q)) := by
    rcases hline with ⟨t, rfl⟩ | rfl
    · exact dataPayload_cut last t
    · exact .inr (.inl (dataPayload_concat_return line))
  rcases hpayload with hnone | heq | ⟨p, q, hp, hpne, hq, hwhole⟩
  · refine .inr ⟨events₁, ?_, List.prefix_append ..⟩
    rw [parseSseEvents_eq_ok_iff, hpayloads, hnone, h₁]
    simp
  · have hsplit : (line :: behind).filterMap dataPayload =
        (dataPayload last).toList ++ behind.filterMap dataPayload := by
      rw [heq]
      cases hl : dataPayload line <;> simp [hl]
    rw [hsplit, List.map_append] at h₂
    obtain ⟨events₃, events₄, rfl, h₃, -⟩ := List.map_eq_append_iff.mp h₂
    refine .inr ⟨events₁ ++ events₃, ?_, ?_⟩
    · rw [parseSseEvents_eq_ok_iff, hpayloads, List.map_append, List.map_append, h₁, h₃]
    · rw [← List.append_assoc]
      exact List.prefix_append ..
  · have hqne : q ≠ [] := by
      rintro rfl
      exact hq rfl
    refine .inl (@parseSseEvents_of_eq_none _ _ p (by rw [hpayloads, hp]; simp) ?_)
    rcases hwhole with hdone | hwhole
    · exact jsonParse_sentinel_cut hdone hpne hqne
    · have hhead : jsonParse number (p ++ q) ∈ events₂.map some := by
        rw [h₂, List.filterMap_cons, hwhole]
        simp
      obtain ⟨e, he, hparse⟩ := List.mem_map.mp hhead
      exact jsonParse_eq_none_of_append hparse.symm (hnum e (List.mem_append_right _ he)) hq

/-! ## Refusals -/

/-- The result is a refusal: `UnreplayableStream` is thrown. -/
def Refused {α : Type} (r : Except StreamFailure α) : Prop := ∃ detail, r = .error (.unreplayable detail)

/-- The failure is a refusal. -/
def StreamFailure.IsRefusal (e : StreamFailure) : Prop := ∃ detail, e = .unreplayable detail

/-- The event reports no failure of the provider, and its delta has no type that breaks the check. -/
def Harmless (raw : JsonValue) : Prop :=
  eventType raw ≠ some .error ∧
    (eventType raw = some .contentBlockDelta →
      ∀ delta, raw.get "delta" = some delta → objectPrototypeKeys.any (isType delta) = false)

/-- An accepted event is harmless, unless it reports a failure. -/
lemma harmless_of_step {s s' : StreamState} {raw : JsonValue} (h : s.step number raw = .ok s')
    (herror : eventType raw ≠ some .error) : Harmless raw := by
  refine ⟨herror, fun htype delta hdelta => ?_⟩
  obtain ⟨-, -, type, htype', hstep⟩ := step_eq_ok h
  obtain rfl := Option.some.inj (htype.symm.trans htype')
  cases hstep with
  | contentBlockDelta index_eq delta' typed found applied =>
    obtain rfl := Option.some.inj (hdelta.symm.trans delta')
    unfold BlockState.delta at applied
    obtain ⟨_, -, applied⟩ := except_bind_eq_ok_iff.mp applied
    obtain ⟨_, -, applied⟩ := except_bind_eq_ok_iff.mp applied
    obtain ⟨_, hcheck, -⟩ := except_bind_eq_ok_iff.mp applied
    by_contra hproto
    rw [Bool.not_eq_false] at hproto
    rw [checkDeltaType, if_pos hproto] at hcheck
    cases hcheck

/-- A computation fails with a refusal at most. -/
abbrev OnlyRefuses {α : Type} (r : Except StreamFailure α) : Prop :=
  Yields StreamFailure.IsRefusal (fun _ => True) r

lemma onlyRefuses_error {α : Type} (detail : String) :
    OnlyRefuses (.error (.unreplayable detail) : Except StreamFailure α) := ⟨detail, rfl⟩

/-- A check and what follows it. -/
lemma onlyRefuses_refuseIf_bind {α : Type} {p : Prop} [Decidable p] {detail : String}
    {f : Unit → Except StreamFailure α} (hf : ∀ u, OnlyRefuses (f u)) :
    OnlyRefuses (refuseIf p detail >>= f) :=
  (yields_rejectIf (E := StreamFailure.IsRefusal) ⟨detail, rfl⟩).bind fun u _ => hf u

lemma onlyRefuses_map {α β : Type} {r : Except StreamFailure α} {f : α → β} (h : OnlyRefuses r) :
    OnlyRefuses (r.map f) := h.map fun _ _ => trivial

lemma onlyRefuses_deltaText (delta : JsonValue) (key : String) :
    OnlyRefuses (deltaText delta key) := by
  unfold deltaText
  split
  · exact trivial
  · exact onlyRefuses_error _

lemma BlockState.delta_onlyRefuses (b : BlockState) {delta : JsonValue}
    (h : objectPrototypeKeys.any (isType delta) = false) : OnlyRefuses (b.delta delta) := by
  have hcheck : OnlyRefuses (checkDeltaType b.block delta) := by
    rw [checkDeltaType, if_neg (by simp [h])]
    exact (yields_rejectIf (E := StreamFailure.IsRefusal) ⟨_, rfl⟩).mono fun _ _ => trivial
  unfold BlockState.delta
  refine onlyRefuses_refuseIf_bind fun _ => onlyRefuses_refuseIf_bind fun _ => ?_
  refine hcheck.bind fun _ _ => ?_
  split
  · exact onlyRefuses_map (onlyRefuses_deltaText ..)
  · split
    · exact onlyRefuses_map (onlyRefuses_deltaText ..)
    · split
      · refine (onlyRefuses_deltaText ..).bind fun _ _ => ?_
        exact onlyRefuses_refuseIf_bind fun _ => trivial
      · split
        · exact onlyRefuses_map (onlyRefuses_deltaText ..)
        · split
          · split
            · exact onlyRefuses_refuseIf_bind fun _ => trivial
            · exact onlyRefuses_error _
          · exact onlyRefuses_error _

lemma BlockState.stop_onlyRefuses (b : BlockState) : OnlyRefuses (b.stop number) := by
  unfold BlockState.stop
  refine onlyRefuses_refuseIf_bind fun _ => onlyRefuses_refuseIf_bind fun _ => ?_
  split
  · exact trivial
  · next acc _ =>
    have hinput : OnlyRefuses (toolInput number acc) := by
      unfold toolInput
      split
      · exact trivial
      · split
        · exact trivial
        · exact onlyRefuses_error _
    exact hinput.bind fun _ _ => onlyRefuses_refuseIf_bind fun _ => trivial

lemma dispatch_onlyRefuses (s : StreamState) {raw : JsonValue} {type : EventType}
    (htype : eventType raw = some type) (h : Harmless raw) :
    OnlyRefuses (s.dispatch number raw type) := by
  cases type with
  | messageStart =>
    change OnlyRefuses (s.messageStart raw)
    unfold StreamState.messageStart
    refine onlyRefuses_refuseIf_bind fun _ => ?_
    split
    · next props _ =>
      refine onlyRefuses_refuseIf_bind fun _ => onlyRefuses_refuseIf_bind fun _ => ?_
      have hmodel : OnlyRefuses (providerModelOf (.obj props)) := by
        unfold providerModelOf
        split
        · exact trivial
        · exact trivial
        · exact onlyRefuses_error _
      exact hmodel.bind fun _ _ => trivial
    · exact onlyRefuses_error _
  | contentBlockStart =>
    change OnlyRefuses (s.contentBlockStart raw)
    unfold StreamState.contentBlockStart
    refine onlyRefuses_refuseIf_bind fun _ => ?_
    split
    · refine onlyRefuses_refuseIf_bind fun _ => onlyRefuses_refuseIf_bind fun _ => ?_
      exact onlyRefuses_refuseIf_bind fun _ => trivial
    · exact onlyRefuses_error _
  | contentBlockDelta =>
    change OnlyRefuses (s.contentBlockDelta raw)
    unfold StreamState.contentBlockDelta
    split
    · next props _ hdelta =>
      split
      · exact onlyRefuses_error _
      · split
        · exact onlyRefuses_error _
        · exact onlyRefuses_map (BlockState.delta_onlyRefuses _ (h.2 htype _ hdelta))
    · exact onlyRefuses_error _
  | contentBlockStop =>
    change OnlyRefuses (s.contentBlockStop number raw)
    unfold StreamState.contentBlockStop
    split
    · exact onlyRefuses_error _
    · split
      · exact onlyRefuses_error _
      · exact onlyRefuses_map (BlockState.stop_onlyRefuses _)
  | messageStop => exact onlyRefuses_refuseIf_bind fun _ => trivial
  | messageDelta =>
    exact onlyRefuses_refuseIf_bind fun _ => onlyRefuses_refuseIf_bind fun _ => trivial
  | ping => exact trivial
  | error => exact trivial

/-- **A harmless event is accepted or refused.** -/
theorem step_onlyRefuses (s : StreamState) {raw : JsonValue} (h : Harmless raw) :
    OnlyRefuses (s.step number raw) := by
  unfold StreamState.step
  refine onlyRefuses_refuseIf_bind fun _ => onlyRefuses_refuseIf_bind fun _ => ?_
  refine onlyRefuses_refuseIf_bind fun _ => ?_
  split
  · exact onlyRefuses_error _
  · next type htype => exact onlyRefuses_refuseIf_bind fun _ => dispatch_onlyRefuses s htype h

/-- Harmless events are accepted or refused. -/
lemma run_onlyRefuses {events : List JsonValue} (h : ∀ raw ∈ events, Harmless raw)
    (s : StreamState) : OnlyRefuses (events.foldlM (StreamState.step number) s) := by
  induction events generalizing s with
  | nil => exact trivial
  | cons raw events ih =>
    rw [List.foldlM_cons]
    refine (step_onlyRefuses s (h raw (List.mem_cons_self ..))).bind fun s' _ => ?_
    exact ih (fun raw hraw => h raw (List.mem_cons_of_mem _ hraw)) s'

/-! ## Accepted streams -/

/-- A message that is reassembled comes from a complete run. -/
lemma reassemble_eq_ok_iff {events : List JsonValue} {m : StreamMessage} :
    reassemble number events = .ok m ↔
      ∃ s, Complete number events s ∧ s.sawError = false ∧ s.blocks ≠ [] ∧
        m = ⟨s.role, s.blocks.map (·.2.block), s.model⟩ := by
  simp only [reassemble, StreamState.finish, except_bind_eq_ok_iff, rejectIf_eq_ok_iff,
    except_pure_eq_ok_iff, not_or, Bool.not_eq_true, Bool.not_eq_false]
  constructor
  · rintro ⟨s, hrun, _, herror, _, ⟨hclosed, hstop⟩, _, hblocks, rfl⟩
    exact ⟨s, ⟨hrun, hclosed, hstop⟩, herror, hblocks, rfl⟩
  · rintro ⟨s, ⟨hrun, hclosed, hstop⟩, herror, hblocks, rfl⟩
    exact ⟨s, hrun, (), herror, (), ⟨hclosed, hstop⟩, (), hblocks, rfl⟩

/-- The events of an accepted stream are harmless objects. -/
lemma harmless_of_reassemble {events : List JsonValue} {m : StreamMessage}
    (h : reassemble number events = .ok m) : ∀ raw ∈ events, Harmless raw ∧ ∀ x, raw ≠ .num x := by
  obtain ⟨s, hcomplete, herror, -⟩ := reassemble_eq_ok_iff.mp h
  have hcount := error_run hcomplete.run
  rw [herror] at hcount
  have hnone : events.filter (isEvent .error) = [] := by
    refine List.eq_nil_of_length_eq_zero ?_
    have hzero : ({} : StreamState).sawError.toNat = 0 := rfl
    have hfalse : false.toNat = 0 := rfl
    omega
  intro raw hraw
  obtain ⟨before, behind, rfl⟩ := List.append_of_mem hraw
  have hrun := hcomplete.run
  rw [List.foldlM_append, except_bind_eq_ok_iff] at hrun
  obtain ⟨s₁, -, hrun⟩ := hrun
  rw [List.foldlM_cons, except_bind_eq_ok_iff] at hrun
  obtain ⟨s₂, hstep, -⟩ := hrun
  refine ⟨harmless_of_step hstep fun htype => ?_, ?_⟩
  · have hnot := List.filter_eq_nil_iff.mp hnone raw hraw
    exact hnot (by simp [isEvent, htype])
  · rintro x rfl
    obtain ⟨-, -, type, htype, -⟩ := step_eq_ok hstep
    have hfound := List.find?_some htype
    exact absurd hfound (by simp [isType, JsonValue.textAt, JsonValue.get])

/-- **A part of the events of an accepted stream is refused.** -/
theorem reassemble_cut {events events' : List JsonValue} {m : StreamMessage}
    (h : reassemble number events = .ok m) (hcut : events' <+: events) :
    Refused (reassemble number events') ∨ reassemble number events' = .ok m := by
  obtain ⟨rest, rfl⟩ := hcut
  rcases rest with _ | ⟨raw, rest⟩
  · rw [List.append_nil] at h
    exact .inr h
  · obtain ⟨s, hcomplete, -⟩ := reassemble_eq_ok_iff.mp h
    have hrun := hcomplete.run
    rw [List.foldlM_append, except_bind_eq_ok_iff] at hrun
    obtain ⟨s₁, hrun₁, hrun⟩ := hrun
    rw [List.foldlM_cons, except_bind_eq_ok_iff] at hrun
    obtain ⟨s₂, hstep, -⟩ := hrun
    -- the next event is accepted, so neither terminal has been seen before it
    obtain ⟨hstop, herror, -⟩ := step_eq_ok hstep
    refine .inl ⟨"stream_truncated", ?_⟩
    rw [reassemble, hrun₁, except_ok_bind, StreamState.finish, rejectIf_of_not (by simp [herror]),
      except_ok_bind, refuseIf, rejectIf, if_pos (.inr (by simp [hstop]))]
    rfl

end Messages

/-! ## Edits of a list -/

/-- A part of a list is repeated, left out, or moved to another place. -/
inductive FrameEdit {α : Type} (frame : List α) : List α → List α → Prop
  | duplicated {before behind before' behind' : List α}
      (h : before' ++ behind' = before ++ frame ++ behind) :
      FrameEdit frame (before ++ frame ++ behind) (before' ++ frame ++ behind')
  | deleted (before behind : List α) : FrameEdit frame (before ++ frame ++ behind) (before ++ behind)
  | moved {before behind before' behind' : List α} (h : before' ++ behind' = before ++ behind) :
      FrameEdit frame (before ++ frame ++ behind) (before' ++ frame ++ behind')

namespace FrameEdit

variable {α β : Type} {frame l l' : List α}

/-- What is read of the items of a list is edited with it. -/
lemma filterMap (h : FrameEdit frame l l') (f : α → Option β) :
    FrameEdit (frame.filterMap f) (l.filterMap f) (l'.filterMap f) := by
  cases h with
  | duplicated h =>
    have hf := congrArg (List.filterMap f) h
    simp only [List.filterMap_append] at hf ⊢
    exact .duplicated hf
  | deleted =>
    simp only [List.filterMap_append]
    exact .deleted ..
  | moved h =>
    have hf := congrArg (List.filterMap f) h
    simp only [List.filterMap_append] at hf ⊢
    exact .moved hf

/-- An edit brings in nothing new. -/
lemma subset (h : FrameEdit frame l l') {x : α} (hx : x ∈ l') : x ∈ l := by
  cases h with
  | duplicated h =>
    have hmem := congrArg (x ∈ ·) h
    simp only [List.mem_append, eq_iff_iff] at hx hmem ⊢
    tauto
  | deleted =>
    simp only [List.mem_append] at hx ⊢
    tauto
  | moved h =>
    have hmem := congrArg (x ∈ ·) h
    simp only [List.mem_append, eq_iff_iff] at hx hmem ⊢
    tauto

end FrameEdit

/-- Moving one item leaves a class as it is that the item is not in, or that has one item at most. -/
lemma filter_eq_of_moved {α : Type} {x : α} {before behind before' behind' : List α}
    (h : before' ++ behind' = before ++ behind) (p : α → Bool)
    (hp : p x = true → ((before ++ [x] ++ behind).filter p).length ≤ 1) :
    (before ++ [x] ++ behind).filter p = (before' ++ [x] ++ behind').filter p := by
  have hf := congrArg (List.filter p) h
  simp only [List.filter_append] at hf hp ⊢
  cases hx : p x with
  | false => simpa [hx] using hf.symm
  | true =>
    have hlen := hp hx
    have hsum := congrArg List.length hf
    simp only [List.filter_cons, hx, if_true, List.filter_nil, List.length_append,
      List.length_singleton] at hlen hsum ⊢
    have hnil : ∀ l : List α, l.length = 0 → l = [] := fun l => List.eq_nil_of_length_eq_zero
    rw [hnil (before.filter p) (by omega), hnil (behind.filter p) (by omega),
      hnil (before'.filter p) (by omega), hnil (behind'.filter p) (by omega)]

namespace Messages

variable {number : List Char → Option JsonNumber}

/-! ## Editing a stream -/

/-- The types of the structural frames. -/
def structuralTypes : List EventType :=
  [.messageStart, .contentBlockStart, .contentBlockStop, .messageStop]

/-- The lines of a structural frame: one of them carries the event. -/
def IsStructuralFrame (number : List Char → Option JsonNumber) (frame : List (List Char)) : Prop :=
  ∃ payload raw, frame.filterMap dataPayload = [payload] ∧ jsonParse number payload = some raw ∧
    ∃ type ∈ structuralTypes, eventType raw = some type

/-- The event at the start or the stop of a block has the index of the block. -/
lemma addresses_of_mem {events : List JsonValue} {s : StreamState} {raw : JsonValue}
    {type : EventType} (h : Complete number events s) (hraw : raw ∈ events)
    (htype : eventType raw = some type)
    (hcontent : type = .contentBlockStart ∨ type = .contentBlockStop) :
    ∃ x, addresses x raw = true := by
  obtain ⟨before, behind, rfl⟩ := List.append_of_mem hraw
  have hrun := h.run
  rw [List.foldlM_append, except_bind_eq_ok_iff] at hrun
  obtain ⟨s₁, -, hrun⟩ := hrun
  rw [List.foldlM_cons, except_bind_eq_ok_iff] at hrun
  obtain ⟨s₂, hstep, -⟩ := hrun
  obtain ⟨-, -, type', htype', hstep⟩ := step_eq_ok hstep
  obtain rfl := Option.some.inj (htype'.symm.trans htype)
  cases hstep with
  | @contentBlockStart index _ _ index_eq =>
    exact ⟨index, by simp [addresses, htype', EventType.isContent, index_eq]⟩
  | @contentBlockStop index _ _ index_eq =>
    exact ⟨index, by simp [addresses, htype', EventType.isContent, index_eq]⟩
  | _ => rcases hcontent with hcontent | hcontent <;> cases hcontent

/-- **Each structural event of a complete run has a class of its own, and a partner**: the class has one
event at most, in every complete run, and as many as the class of the partner. -/
lemma exists_partner {events : List JsonValue} {s : StreamState} {raw : JsonValue} {type : EventType}
    (h : Complete number events s) (hraw : raw ∈ events) (htype : eventType raw = some type)
    (hstructural : type ∈ structuralTypes) :
    ∃ p q : JsonValue → Bool, p raw = true ∧ q raw = false ∧
      ∀ {events s}, Complete number events s →
        (events.filter q).length = (events.filter p).length ∧ (events.filter p).length ≤ 1 := by
  have hblock : type = .contentBlockStart ∨ type = .contentBlockStop →
      ∃ x, addresses x raw = true := addresses_of_mem h hraw htype
  simp only [structuralTypes, List.mem_cons, List.not_mem_nil, or_false] at hstructural
  rcases hstructural with rfl | rfl | rfl | rfl
  · refine ⟨isEvent .messageStart, isEvent .messageStop, by simp [isEvent, htype],
      by simp [isEvent, htype], fun h => ?_⟩
    have hcount := h.count_message
    omega
  · obtain ⟨x, hx⟩ := hblock (.inl rfl)
    refine ⟨fun e => isEvent .contentBlockStart e && addresses x e,
      fun e => isEvent .contentBlockStop e && addresses x e, by simp [isEvent, htype, hx],
      by simp [isEvent, htype], fun h => ?_⟩
    have hcount := h.count x
    simp only [List.filter_filter] at hcount
    exact hcount
  · obtain ⟨x, hx⟩ := hblock (.inr rfl)
    refine ⟨fun e => isEvent .contentBlockStop e && addresses x e,
      fun e => isEvent .contentBlockStart e && addresses x e, by simp [isEvent, htype, hx],
      by simp [isEvent, htype], fun h => ?_⟩
    have hcount := h.count x
    simp only [List.filter_filter] at hcount
    omega
  · refine ⟨isEvent .messageStop, isEvent .messageStart, by simp [isEvent, htype],
      by simp [isEvent, htype], fun h => ?_⟩
    have hcount := h.count_message
    omega

/-- A complete run in which a structural event is moved builds the same message. -/
lemma moved_eq {before behind before' behind' : List JsonValue} {raw : JsonValue} {type : EventType}
    {s s' : StreamState} (hmoved : before' ++ behind' = before ++ behind)
    (h : Complete number (before ++ [raw] ++ behind) s)
    (h' : Complete number (before' ++ [raw] ++ behind') s')
    (htype : eventType raw = some type) (hstructural : type ∈ structuralTypes) :
    s.role = s'.role ∧ s.blocks = s'.blocks ∧ s.model = s'.model := by
  have htrace : ∀ x, (before ++ [raw] ++ behind).filter (addresses x) =
      (before' ++ [raw] ++ behind').filter (addresses x) := by
    refine fun x => h.trace_ext h' x fun type' => ?_
    have hcount := h.count x
    simp only [List.filter_filter] at hcount ⊢
    refine filter_eq_of_moved hmoved _ fun hraw => ?_
    simp only [Bool.and_eq_true, isEvent, htype, decide_eq_true_eq, Option.some.injEq] at hraw
    obtain ⟨rfl, hx⟩ := hraw
    simp only [structuralTypes, List.mem_cons, List.not_mem_nil, or_false] at hstructural
    rcases hstructural with rfl | rfl | rfl | rfl
    · simp [addresses, htype, EventType.isContent] at hx
    · exact hcount.2
    · exact hcount.1.le.trans hcount.2
    · simp [addresses, htype, EventType.isContent] at hx
  have hperm : (before ++ [raw] ++ behind).Perm (before' ++ [raw] ++ behind') := by
    have hmiddle : ∀ l l' : List JsonValue, (l ++ [raw] ++ l').Perm (raw :: (l ++ l')) := by
      intro l l'
      rw [List.append_assoc, List.singleton_append]
      exact List.perm_middle
    exact (hmiddle before behind).trans (hmoved ▸ (hmiddle before' behind').symm)
  have hhead : (before ++ [raw] ++ behind).filter (isEvent .messageStart) =
      (before' ++ [raw] ++ behind').filter (isEvent .messageStart) :=
    filter_eq_of_moved hmoved _ fun _ => h.count_message.1.le
  have hmeta := head_run h.run
  rw [hhead, ← head_run h'.run] at hmeta
  exact ⟨congrArg Prod.fst hmeta, h.blocks_eq h' (hperm.filter _).length_eq htrace,
    congrArg Prod.snd hmeta⟩

/-- **An accepted stream with one structural event repeated, left out or moved is refused, or has the
same message.** -/
theorem reassemble_edit {events events' : List JsonValue} {raw : JsonValue} {type : EventType}
    {m : StreamMessage} (h : reassemble number events = .ok m) (htype : eventType raw = some type)
    (hstructural : type ∈ structuralTypes) (hedit : FrameEdit [raw] events events') :
    Refused (reassemble number events') ∨ reassemble number events' = .ok m := by
  have hharmless : ∀ e ∈ events', Harmless e := fun e he =>
    (harmless_of_reassemble h e (hedit.subset he)).1
  obtain ⟨s, hcomplete, herror, hblocks, rfl⟩ := reassemble_eq_ok_iff.mp h
  have hrefuses := @run_onlyRefuses number _ hharmless {}
  cases hrun : events'.foldlM (StreamState.step number) {} with
  | error e =>
    obtain ⟨detail, rfl⟩ := hrefuses.of_error hrun
    refine .inl ⟨detail, ?_⟩
    rw [reassemble, hrun]
    rfl
  | ok s' =>
    have herror' : s'.sawError = false := by
      have hcount := error_run hrun
      have hnone : events'.filter (isEvent .error) = [] := by
        refine List.filter_eq_nil_iff.mpr fun e he => ?_
        simpa [isEvent] using (hharmless e he).1
      rw [hnone] at hcount
      cases hs' : s'.sawError with
      | false => rfl
      | true =>
        rw [hs'] at hcount
        cases hcount
    by_cases hdone : s'.hasOpen = false ∧ s'.sawMessageStop = true
    · have hcomplete' : Complete number events' s' := ⟨hrun, hdone.1, hdone.2⟩
      cases hedit with
      | @duplicated before behind before' behind' hsame =>
        obtain ⟨p, q, hp, -, hclass⟩ := exists_partner hcomplete (by simp) htype hstructural
        have hlen := (hclass hcomplete').2
        have hsum := congrArg (fun l => (l.filter p).length) hsame
        simp only [List.filter_append, List.filter_cons, List.filter_nil, hp, if_true,
          List.length_append, List.length_singleton] at hlen hsum
        omega
      | deleted before behind =>
        obtain ⟨p, q, hp, hq, hclass⟩ := exists_partner hcomplete (by simp) htype hstructural
        have hlen := (hclass hcomplete).1
        have hlen' := (hclass hcomplete').1
        simp only [List.filter_append, List.filter_cons, List.filter_nil, hp, hq, if_true,
          Bool.false_eq_true, if_false, List.length_append, List.length_singleton,
          List.length_nil] at hlen hlen'
        omega
      | moved hmoved =>
        obtain ⟨hrole, hsame, hmodel⟩ :=
          moved_eq hmoved hcomplete hcomplete' htype hstructural
        exact .inr (reassemble_eq_ok_iff.mpr ⟨s', hcomplete', herror', hsame ▸ hblocks, by
          rw [hrole, hsame, hmodel]⟩)
    · refine .inl ⟨"stream_truncated", ?_⟩
      have hopen : s'.hasOpen = true ∨ ¬s'.sawMessageStop = true := by
        cases hopen : s'.hasOpen with
        | true => exact .inl rfl
        | false => exact .inr fun hstop => hdone ⟨hopen, hstop⟩
      rw [reassemble, hrun, except_ok_bind, StreamState.finish, rejectIf_of_not (by simp [herror']),
        except_ok_bind, refuseIf, rejectIf, if_pos hopen]
      rfl

/-- **A truncated stream is never replayed as a finished answer.**  Of a stream that is accepted, every
beginning is refused or has the same message, and so has every stream in which one structural frame is
repeated, left out or moved to another place between two lines. -/
theorem truncated_stream_never_replayed {sseText : List Char} {m : StreamMessage}
    (h : assistantMessageFromStream number sseText = .ok m) :
    (∀ cut, cut <+: sseText →
        Refused (assistantMessageFromStream number cut) ∨
          assistantMessageFromStream number cut = .ok m) ∧
      ∀ frame edited, IsStructuralFrame number frame →
        FrameEdit frame (sseLines sseText) (sseLines edited) →
          Refused (assistantMessageFromStream number edited) ∨
            assistantMessageFromStream number edited = .ok m := by
  rw [assistantMessageFromStream, except_bind_eq_ok_iff] at h
  obtain ⟨events, hparse, hm⟩ := h
  constructor
  · rintro cut ⟨rest, rfl⟩
    rcases parseSseEvents_cut hparse fun e he => (harmless_of_reassemble hm e he).2 with
      hbroken | ⟨events', hparse', hcut⟩
    · refine .inl ⟨"sse_data_not_json", ?_⟩
      rw [assistantMessageFromStream, hbroken]
      rfl
    · rw [assistantMessageFromStream, hparse', except_ok_bind]
      exact reassemble_cut hm hcut
  · rintro frame edited ⟨payload, raw, hpayload, hraw, type, hstructural, htype⟩ hedit
    have hpayloads := hedit.filterMap dataPayload
    rw [hpayload] at hpayloads
    have hevents := hpayloads.filterMap (jsonParse number)
    rw [parseSseEvents_eq_ok_iff] at hparse
    rw [map_eq_map_some_iff] at hparse
    obtain ⟨hsome, rfl⟩ := hparse
    have hparse' : parseSseEvents number edited =
        .ok ((dataPayloads edited).filterMap (jsonParse number)) := by
      rw [parseSseEvents_eq_ok_iff, map_eq_map_some_iff]
      exact ⟨fun payload hpayload => hsome payload (hpayloads.subset hpayload), rfl⟩
    rw [assistantMessageFromStream, hparse', except_ok_bind]
    refine reassemble_edit hm htype hstructural ?_
    simpa only [dataPayloads, List.filterMap_cons, hraw, List.filterMap_nil] using hevents

lemma zero_printed : (JsNumber.int 0).Printed := by
  decide

/-- Reads the numeral `0` only. -/
def zeroNumber (numeral : List Char) : Option JsonNumber :=
  if numeral = ['0'] then some ⟨.int 0, zero_printed⟩ else none

/-- A line with an event. -/
def dataLine (event : JsonValue) : List Char := "data:".toList ++ jsonStringify event ++ ['\n']

/-- A stream with one block. -/
def sampleStream : List Char :=
  dataLine (.obj [(jsString "type", .text "message_start"), (jsString "message", .obj [])]) ++
  dataLine (.obj [(jsString "type", .text "content_block_start"), (jsString "index", .int 0),
    (jsString "content_block", .obj [(jsString "type", .text "text"), (jsString "text", .text "Hi")])]) ++
  dataLine (.obj [(jsString "type", .text "content_block_stop"), (jsString "index", .int 0)]) ++
  dataLine (.obj [(jsString "type", .text "message_stop")])

theorem truncated_stream_never_replayed_sample :
    ∃ m, assistantMessageFromStream zeroNumber sampleStream = .ok m ∧
      (∀ cut, cut <+: sampleStream →
        Refused (assistantMessageFromStream zeroNumber cut) ∨
          assistantMessageFromStream zeroNumber cut = .ok m) ∧
      ∀ frame edited, IsStructuralFrame zeroNumber frame →
        FrameEdit frame (sseLines sampleStream) (sseLines edited) →
          Refused (assistantMessageFromStream zeroNumber edited) ∨
            assistantMessageFromStream zeroNumber edited = .ok m := by
  have haccepted : (assistantMessageFromStream zeroNumber sampleStream).toOption.isSome = true := by
    decide +kernel
  obtain ⟨m, hm⟩ := Option.isSome_iff_exists.mp haccepted
  rw [except_toOption_eq_some_iff] at hm
  exact ⟨m, hm, truncated_stream_never_replayed hm⟩

end Messages

end GovAI
