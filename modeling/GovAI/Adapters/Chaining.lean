import GovAI.Adapters.Responses

/-!
# Chaining and replay

The two strategies of the Responses adapter on histories whose answered turns were all built by it.
If the provider holds under the id of a response what it saw when it produced it, followed by its
output, it sees the same items whether a request chains or replays (`chaining_refines_replay`).  A
request that chains can be built without the chain only if the inputs that chaining never looks at are
readable (`chaining_fallback_iff`).
-/

namespace GovAI

/-! ## Own properties -/

lemma find_writeProp {α : Type} (props : List (JsString × α)) (p : JsString × α) (key : JsString) :
    (writeProp props p).find? (·.1 = key) =
      if key = p.1 then some p else props.find? (·.1 = key) := by
  unfold writeProp
  by_cases hmem : p.1 ∈ props.map (·.1)
  · rw [if_pos hmem, List.find?_map]
    have hcomp : ((fun q : JsString × α => decide (q.1 = key)) ∘
        fun q => if q.1 = p.1 then p else q) = fun q => decide (q.1 = key) := by
      funext q
      simp only [Function.comp_apply]
      split
      · next h => rw [h]
      · rfl
    rw [hcomp]
    by_cases hkey : key = p.1
    · obtain ⟨q, hq, hqp⟩ := List.mem_map.mp hmem
      obtain ⟨r, hr⟩ := Option.isSome_iff_exists.mp
        (List.find?_isSome (p := fun q : JsString × α => decide (q.1 = key)).mpr
          ⟨q, hq, decide_eq_true (hqp.trans hkey.symm)⟩)
      have hrkey : r.1 = key := by simpa using List.find?_some hr
      rw [hr, Option.map_some, if_pos hkey, if_pos (hrkey.trans hkey)]
    · rw [if_neg hkey]
      cases hfind : props.find? fun q => decide (q.1 = key) with
      | none => rfl
      | some r =>
        have hrkey : r.1 = key := by simpa using List.find?_some hfind
        rw [Option.map_some, if_neg fun h => hkey (hrkey.symm.trans h)]
  · rw [if_neg hmem, List.find?_append]
    by_cases hkey : key = p.1
    · have hnone : props.find? (fun q => decide (q.1 = key)) = none := by
        refine List.find?_eq_none.mpr fun q hq h => hmem ?_
        exact List.mem_map.mpr ⟨q, hq, (of_decide_eq_true h).trans hkey⟩
      rw [hnone, if_pos hkey]
      simp [hkey]
    · have hne : ¬p.1 = key := fun h => hkey h.symm
      simp [hkey, hne]

/-- The results of a list of calls, put together, when each call succeeds under a condition with a
known result. -/
lemma except_mapM_flatten_iff {ε α β : Type} {f : α → Except ε (List β)} {P : α → Prop}
    {g : α → List β} (hf : ∀ a x, f a = .ok x ↔ P a ∧ x = g a) {l : List α} {items : List β} :
    (∃ parts, l.mapM f = .ok parts ∧ parts.flatten = items) ↔
      (∀ a ∈ l, P a) ∧ items = l.flatMap g := by
  induction l generalizing items with
  | nil =>
    rw [List.mapM_nil]
    constructor
    · rintro ⟨_, hparts, rfl⟩
      cases hparts
      exact ⟨List.forall_mem_nil _, rfl⟩
    · rintro ⟨-, rfl⟩
      exact ⟨[], rfl, rfl⟩
  | cons a l ih =>
    rw [List.mapM_cons, List.flatMap_cons, List.forall_mem_cons]
    simp only [except_bind_eq_ok_iff, except_pure_eq_ok_iff, hf]
    constructor
    · rintro ⟨_, ⟨_, ⟨ha, rfl⟩, rest, hrest, rfl⟩, rfl⟩
      obtain ⟨hall, heq⟩ := ih.mp ⟨rest, hrest, rfl⟩
      exact ⟨⟨ha, hall⟩, by rw [List.flatten_cons, heq]⟩
    · rintro ⟨⟨ha, hall⟩, rfl⟩
      obtain ⟨rest, hrest, heq⟩ := ih.mpr ⟨hall, rfl⟩
      exact ⟨_, ⟨_, ⟨ha, rfl⟩, rest, hrest, rfl⟩, by rw [List.flatten_cons, heq]⟩

namespace JsonValue

/-- A property that is set has the value it is set to, and the others keep theirs. -/
lemma get_set {v : JsonValue} (hv : v.isObject = true) (key key' : String) (x : JsonValue) :
    (v.set key x).get key' = if jsString key' = jsString key then some x else v.get key' := by
  cases v with
  | obj props =>
    change ((writeProp props (jsString key, x)).find? _).map (·.2) = _
    rw [find_writeProp]
    split <;> rfl
  | _ => cases hv

lemma isObject_of_get {v x : JsonValue} {key : String} (h : v.get key = some x) :
    v.isObject = true := by
  cases v with
  | obj props => rfl
  | _ => cases h

end JsonValue

namespace Responses

variable {number : List Char → Option JsonNumber}

/-! ## Inputs -/

/-- The input of a native request is a text or a list of items. -/
def InputReadable (native : JsonValue) : Prop :=
  ∃ v, native.get "input" = some v ∧ ((∃ text, v = .str text) ∨ ∃ items, v = .arr items)

/-- The items that the input of a native request stands for. -/
def nativeItems (native : JsonValue) : List JsonValue :=
  match native.get "input" with
  | some (.str text) => [userMessage text]
  | some (.arr items) => items
  | _ => []

lemma nativeItems_set {native : JsonValue} (hobject : native.isObject = true)
    (items : List JsonValue) : nativeItems (native.set "input" (.arr items)) = items := by
  have hget := JsonValue.get_set hobject "input" "input" (.arr items)
  rw [if_pos rfl] at hget
  unfold nativeItems
  rw [hget]

lemma inputItemsOf_history_eq_ok_iff {native : JsonValue} {items : List JsonValue} :
    inputItemsOf native .history = .ok items ↔ InputReadable native ∧ items = nativeItems native := by
  unfold inputItemsOf InputReadable nativeItems
  cases hget : native.get "input" with
  | none => cases native.isObject <;> simp
  | some v =>
    rw [if_pos (JsonValue.isObject_of_get hget)]
    cases v <;> simp [eq_comm]

lemma inputItemsOf_ownTurn_eq_ok_iff {native : JsonValue} (hobject : native.isObject = true)
    {items : List JsonValue} :
    inputItemsOf native .ownTurn = .ok items ↔
      (native.get "input" = none ∨ InputReadable native) ∧ items = nativeItems native := by
  unfold inputItemsOf InputReadable nativeItems
  rw [if_pos hobject]
  cases hget : native.get "input" with
  | none => simp [eq_comm]
  | some v => cases v <;> simp [eq_comm]

lemma historyItems_eq_ok_iff {entries : List AssembledContextEntry} {items : List JsonValue} :
    historyItems entries = .ok items ↔ (∀ e ∈ entries, InputReadable e.userNative) ∧
      items = entries.flatMap fun e => nativeItems e.userNative := by
  unfold historyItems
  rw [except_map_eq_ok_iff]
  exact except_mapM_flatten_iff fun _ _ => inputItemsOf_history_eq_ok_iff

/-! ## Outputs -/

/-- The answer of a turn, if it has one, resolves. -/
def Resolves (number : List Char → Option JsonNumber) (e : AssembledContextEntry) : Prop :=
  ∀ a, e.assistant = some a → ∃ r, terminalResponseOf number a.output = .ok r

/-- The turn has no answer, or one that the provider declared failed. -/
def Silent (number : List Char → Option JsonNumber) (e : AssembledContextEntry) : Prop :=
  ∀ a, e.assistant = some a → terminalResponseOf number a.output = .ok .providerFailed

lemma Silent.resolves {e : AssembledContextEntry} (h : Silent number e) : Resolves number e :=
  fun a ha => ⟨_, h a ha⟩

/-- The output items of a terminal response. -/
def outputItems (number : List Char → Option JsonNumber) (e : AssembledContextEntry) :
    List JsonValue :=
  match e.assistant.map fun a => terminalResponseOf number a.output with
  | some (.ok (.terminal _ output)) => output
  | _ => []

/-- What a turn contributes to the context: its input items and its output items. -/
def contextItems (number : List Char → Option JsonNumber) (e : AssembledContextEntry) :
    List JsonValue :=
  nativeItems e.userNative ++ outputItems number e

lemma Silent.contextItems {e : AssembledContextEntry} (h : Silent number e) :
    contextItems number e = nativeItems e.userNative := by
  unfold Responses.contextItems outputItems
  cases ha : e.assistant with
  | none => exact List.append_nil _
  | some a =>
    rw [Option.map_some, h a ha]
    exact List.append_nil _

lemma contextItems_of_terminal {e : AssembledContextEntry} {a : AssistantContext} {body : JsonValue}
    {output : List JsonValue} (ha : e.assistant = some a)
    (hterminal : terminalResponseOf number a.output = .ok (.terminal body output)) :
    contextItems number e = nativeItems e.userNative ++ output := by
  unfold contextItems outputItems
  rw [ha, Option.map_some, hterminal]

lemma replayItems_eq_ok_iff {e : AssembledContextEntry} {items : List JsonValue} :
    replayItems number e = .ok items ↔
      (InputReadable e.userNative ∧ Resolves number e) ∧ items = contextItems number e := by
  have hinput : ∀ x, inputItemsOf e.userNative .history = .ok x ↔ _ :=
    fun _ => inputItemsOf_history_eq_ok_iff
  have hread : ∀ {p : Prop} {x : List JsonValue}, p →
      ((InputReadable e.userNative ∧ x = items) ↔ (InputReadable e.userNative ∧ p) ∧ items = x) :=
    fun hp => ⟨fun h => ⟨⟨h.1, hp⟩, h.2.symm⟩, fun h => ⟨h.1.1, h.2.symm⟩⟩
  unfold replayItems Resolves contextItems outputItems
  cases ha : e.assistant with
  | none =>
    simp only [except_bind_eq_ok_iff, except_pure_eq_ok_iff, hinput, and_assoc, exists_and_left,
      exists_eq_left, Option.map_none, List.append_nil]
    rw [← and_assoc]
    exact hread (by rintro _ ⟨⟩)
  | some a =>
    have hsome : (∀ b, some a = some b → ∃ r, terminalResponseOf number b.output = .ok r) ↔
        ∃ r, terminalResponseOf number a.output = .ok r :=
      ⟨fun h => h a rfl, fun h b hb => Option.some.inj hb ▸ h⟩
    rw [hsome]
    simp only [except_bind_eq_ok_iff, hinput, and_assoc, exists_and_left, exists_eq_left,
      Option.map_some]
    rw [← and_assoc]
    cases hr : terminalResponseOf number a.output with
    | error detail => simp
    | ok r =>
      cases r with
      | terminal body output =>
        refine Iff.trans ?_ (hread ⟨_, rfl⟩)
        simp
      | providerFailed =>
        refine Iff.trans ?_ (hread ⟨_, rfl⟩)
        simp

/-- Stateless replay succeeds exactly when all inputs are readable and all answers resolve. -/
lemma statelessRequest_eq_ok_iff {input : BuildRequestInput}
    (hobject : input.turnConfig.isObject = true) {request : AdapterRequest} :
    statelessRequest number input = .ok request ↔
      ((∀ e ∈ input.entries, InputReadable e.userNative ∧ Resolves number e) ∧
        (input.turnConfig.get "input" = none ∨ InputReadable input.turnConfig)) ∧
      request = ⟨input.turnConfig.set "input"
        (.arr (input.entries.flatMap (contextItems number) ++ nativeItems input.turnConfig)),
        .statelessReplay⟩ := by
  have hassembled : ∀ items, (∃ parts, input.entries.mapM (replayItems number) = .ok parts ∧
      parts.flatten = items) ↔ _ := fun items =>
    except_mapM_flatten_iff fun _ _ => replayItems_eq_ok_iff
  unfold statelessRequest
  simp only [except_bind_eq_ok_iff, except_pure_eq_ok_iff, inputItemsOf_ownTurn_eq_ok_iff hobject]
  constructor
  · rintro ⟨parts, hparts, _, ⟨hown, rfl⟩, rfl⟩
    obtain ⟨hall, heq⟩ := (hassembled _).mp ⟨parts, hparts, rfl⟩
    exact ⟨⟨hall, hown⟩, by rw [heq]⟩
  · rintro ⟨⟨hall, hown⟩, rfl⟩
    obtain ⟨parts, hparts, heq⟩ := (hassembled _).mpr ⟨hall, rfl⟩
    exact ⟨parts, hparts, _, ⟨hown, rfl⟩, by rw [heq]⟩

/-! ## The anchor -/

/-- What the scan finds in the entries: the last turn with a terminal response, after which all turns
are silent. -/
structure AnchorOf (number : List Char → Option JsonNumber) (entries : List AssembledContextEntry)
    (anchor : Anchor) : Prop where
  split : ∃ before, entries = before ++ anchor.entry :: anchor.trailing
  assistant : anchor.entry.assistant = some anchor.assistant
  terminal : ∃ output,
    terminalResponseOf number anchor.assistant.output = .ok (.terminal anchor.body output)
  silent : ∀ e ∈ anchor.trailing, Silent number e

/-- What the result of the scan says about the entries. -/
def Scanned (number : List Char → Option JsonNumber) (entries : List AssembledContextEntry) :
    Option Anchor → Prop
  | none => ∀ e ∈ entries, Silent number e
  | some anchor => AnchorOf number entries anchor

lemma scanAnchor_spec {reversed trailing : List AssembledContextEntry} {payloadFailure : Bool}
    {result : Option Anchor}
    (h : scanAnchor number reversed trailing payloadFailure = .ok result)
    (htrailing : ∀ e ∈ trailing, Silent number e) :
    Scanned number (reversed.reverse ++ trailing) result := by
  induction reversed generalizing trailing payloadFailure with
  | nil =>
    cases h
    exact htrailing
  | cons e rest ih =>
    rw [List.reverse_cons, List.append_assoc]
    unfold scanAnchor at h
    split at h
    · next hnone =>
      refine ih h (List.forall_mem_cons.mpr ⟨fun a ha => ?_, htrailing⟩)
      cases hnone.symm.trans ha
    · next a ha =>
      obtain ⟨resolution, hresolution, h⟩ := except_bind_eq_ok_iff.mp h
      cases resolution with
      | providerFailed =>
        refine ih h (List.forall_mem_cons.mpr ⟨fun b hb => ?_, htrailing⟩)
        cases hb.symm.trans ha
        exact hresolution
      | terminal body output =>
        cases h
        exact ⟨⟨rest.reverse, rfl⟩, ha, ⟨output, hresolution⟩, htrailing⟩

/-! ## The build -/

/-- The config of a turn that is built: an object without a continuation of its own that is not run in
the background. -/
def ConfigOk (config : JsonValue) : Prop :=
  config.isObject = true ∧ (∀ field ∈ continuationFields, config.has field = false) ∧
    requestsBackground config = false

lemma buildRequest_eq_ok_iff {input : BuildRequestInput} {request : AdapterRequest} :
    buildRequest number input = .ok request ↔ ConfigOk input.turnConfig ∧
      ((input.entries = [] ∧ request = ⟨input.turnConfig, .statelessReplay⟩) ∨
        (input.entries ≠ [] ∧ (∀ e ∈ input.entries, checkEntry e = .ok ()) ∧
          chooseRequest number input = .ok request)) := by
  unfold buildRequest ConfigOk
  simp only [except_bind_eq_ok_iff, except_forM_eq_ok_iff, rejectIf_eq_ok_iff, exists_and_left,
    exists_const, Bool.not_eq_true, Bool.not_eq_false, and_assoc]
  refine and_congr_right fun _ => and_congr_right fun _ => and_congr_right fun _ => ?_
  split
  · next hnil =>
    rw [except_pure_eq_ok_iff]
    exact ⟨fun h => .inl ⟨hnil, h.symm⟩, fun h => h.elim (·.2.symm) fun h => absurd hnil h.1⟩
  · next hne =>
    simp only [except_bind_eq_ok_iff, except_mapError_eq_ok_iff]
    constructor
    · rintro ⟨_, hentries, hchoose⟩
      exact .inr ⟨hne, except_forM_eq_ok_iff.mp hentries, hchoose⟩
    · rintro (⟨hnil, -⟩ | ⟨-, hentries, hchoose⟩)
      · exact absurd hnil hne
      · exact ⟨(), except_forM_eq_ok_iff.mpr hentries, hchoose⟩

/-- A chained request has an anchor whose id it names. -/
lemma chained_of_chooseRequest {input : BuildRequestInput} {body : JsonValue} {id : JsString}
    (h : chooseRequest number input = .ok ⟨body, .responseChain id⟩) :
    ∃ anchor, scanAnchor number input.entries.reverse [] false = .ok (some anchor) ∧
      chainableId input anchor = some id ∧
      chainedRequest input anchor.trailing id = .ok ⟨body, .responseChain id⟩ := by
  have hstateless : ∀ {request}, statelessRequest number input = .ok request →
      request.continuation = .statelessReplay := by
    intro request hrequest
    unfold statelessRequest at hrequest
    simp only [except_bind_eq_ok_iff, except_pure_eq_ok_iff] at hrequest
    obtain ⟨_, _, _, _, rfl⟩ := hrequest
    rfl
  unfold chooseRequest at h
  obtain ⟨found, hscan, h⟩ := except_bind_eq_ok_iff.mp h
  cases found with
  | none => cases hstateless h
  | some anchor =>
    cases hid : chainableId input anchor with
    | none =>
      simp only [hid] at h
      cases hstateless h
    | some anchorId =>
      simp only [hid] at h
      have hsame : anchorId = id := by
        unfold chainedRequest at h
        simp only [except_bind_eq_ok_iff, except_pure_eq_ok_iff] at h
        obtain ⟨_, _, _, _, heq⟩ := h
        injection heq with _ hcontinuation
        injection hcontinuation
      subst hsame
      exact ⟨anchor, hscan, hid, h⟩

/-- A build chains, or is the stateless build. -/
lemma chooseRequest_cases {input : BuildRequestInput} {request : AdapterRequest}
    (h : chooseRequest number input = .ok request) :
    statelessRequest number input = .ok request ∨
      ∃ body id, request = ⟨body, .responseChain id⟩ := by
  unfold chooseRequest at h
  obtain ⟨found, hscan, h⟩ := except_bind_eq_ok_iff.mp h
  cases found with
  | none => exact .inl h
  | some anchor =>
    cases hid : chainableId input anchor with
    | none =>
      simp only [hid] at h
      exact .inl h
    | some anchorId =>
      simp only [hid, chainedRequest, except_bind_eq_ok_iff, except_pure_eq_ok_iff] at h
      obtain ⟨_, _, _, _, rfl⟩ := h
      exact .inr ⟨_, _, rfl⟩

/-- A chained request is readable after its anchor, and carries exactly that. -/
lemma chainedRequest_spec {input : BuildRequestInput} {trailing : List AssembledContextEntry}
    {id : JsString} {request : AdapterRequest} (hobject : input.turnConfig.isObject = true)
    (h : chainedRequest input trailing id = .ok request) :
    (∀ e ∈ trailing, InputReadable e.userNative) ∧
      request.body.textAt "previous_response_id" = some id ∧
      nativeItems request.body =
        (trailing.flatMap fun e => nativeItems e.userNative) ++ nativeItems input.turnConfig := by
  unfold chainedRequest at h
  simp only [except_bind_eq_ok_iff, except_pure_eq_ok_iff, historyItems_eq_ok_iff] at h
  obtain ⟨items, ⟨hread, rfl⟩, config, hconfig, rfl⟩ := h
  refine ⟨hread, ?_⟩
  have hparent : ∀ v : JsonValue, v.isObject = true →
      (v.set "previous_response_id" (.str id)).textAt "previous_response_id" = some id ∧
        nativeItems (v.set "previous_response_id" (.str id)) = nativeItems v := by
    intro v hv
    unfold JsonValue.textAt nativeItems
    rw [JsonValue.get_set hv, JsonValue.get_set hv, if_pos rfl, if_neg (by decide)]
    exact ⟨rfl, rfl⟩
  unfold mergedConfig at hconfig
  split at hconfig
  · next hnil =>
    cases hconfig
    rw [hnil, List.nil_append]
    exact hparent _ hobject
  · obtain ⟨own, hown, rfl⟩ := except_map_eq_ok_iff.mp hconfig
    obtain ⟨-, rfl⟩ := (inputItemsOf_ownTurn_eq_ok_iff hobject).mp hown
    have hset : ∀ x, (input.turnConfig.set "input" x).isObject = true := by
      intro x
      cases hv : input.turnConfig <;> rw [hv] at hobject <;> first | rfl | cases hobject
    obtain ⟨hid, hitems⟩ := hparent _ (hset _)
    exact ⟨hid, hitems.trans (nativeItems_set hobject _)⟩

/-! ## Histories -/

/-- The entries of a branch whose answered turns were dispatched with a request that the adapter built
over the turns before them; `law` relates the request to the answer. -/
inductive BuiltHistory (number : List Char → Option JsonNumber)
    (law : AdapterRequest → AssistantContext → Prop) : List AssembledContextEntry → Prop
  | nil : BuiltHistory number law []
  | turn {entries : List AssembledContextEntry} {e : AssembledContextEntry}
      (history : BuiltHistory number law entries)
      (built : ∀ a, e.assistant = some a → ∃ input request, input.entries = entries ∧
        input.turnConfig = e.userNative ∧ buildRequest number input = .ok request ∧
        law request a) : BuiltHistory number law (entries ++ [e])

section History

variable {law : AdapterRequest → AssistantContext → Prop} {entries : List AssembledContextEntry}

/-- A turn of a history with what precedes it. -/
lemma BuiltHistory.split (h : BuiltHistory number law entries)
    {before after : List AssembledContextEntry} {e : AssembledContextEntry}
    (hentries : entries = before ++ e :: after) :
    BuiltHistory number law before ∧ ∀ a, e.assistant = some a → ∃ input request,
      input.entries = before ∧ input.turnConfig = e.userNative ∧
      buildRequest number input = .ok request ∧ law request a := by
  induction h generalizing after with
  | nil => exact absurd hentries (by simp)
  | turn history built ih =>
    rcases List.eq_nil_or_concat after with rfl | ⟨after', last, rfl⟩
    · obtain ⟨rfl, hlast⟩ := List.append_inj' hentries rfl
      obtain rfl := List.singleton_inj.mp hlast
      exact ⟨history, built⟩
    · rw [List.concat_eq_append, ← List.cons_append, ← List.append_assoc] at hentries
      obtain ⟨hinit, -⟩ := List.append_inj' hentries rfl
      exact ih hinit

/-- What chaining skips was looked at when it was built: under a request that is built, all answers of
the history resolve. -/
theorem BuiltHistory.resolves (h : BuiltHistory number law entries) {input : BuildRequestInput}
    {request : AdapterRequest} (hinput : input.entries = entries)
    (hbuild : buildRequest number input = .ok request) : ∀ e ∈ entries, Resolves number e := by
  obtain ⟨n, hn⟩ : ∃ n, entries.length = n := ⟨_, rfl⟩
  induction n using Nat.strong_induction_on generalizing entries input request with
  | _ n ih =>
    obtain ⟨-, ⟨hnil, -⟩ | ⟨-, -, hchoose⟩⟩ := buildRequest_eq_ok_iff.mp hbuild
    · rw [hinput] at hnil
      exact hnil ▸ List.forall_mem_nil _
    · unfold chooseRequest at hchoose
      obtain ⟨found, hscan, -⟩ := except_bind_eq_ok_iff.mp hchoose
      have hspec := scanAnchor_spec hscan (List.forall_mem_nil _)
      rw [List.reverse_reverse, List.append_nil, hinput] at hspec
      cases found with
      | none => exact fun e he => (hspec e he).resolves
      | some anchor =>
        obtain ⟨⟨before, hsplit⟩, hassistant, ⟨output, hterminal⟩, hsilent⟩ := hspec
        obtain ⟨hbefore, hbuilt⟩ := h.split hsplit
        obtain ⟨input', request', hinput', -, hbuild', -⟩ := hbuilt _ hassistant
        have hlength : before.length < n := by
          rw [← hn, hsplit, List.length_append, List.length_cons]
          omega
        rw [hsplit]
        refine List.forall_mem_append.mpr ⟨ih _ hlength hbefore hinput' hbuild' rfl, ?_⟩
        refine List.forall_mem_cons.mpr ⟨fun a ha => ?_, fun e he => (hsilent e he).resolves⟩
        cases ha.symm.trans hassistant
        exact ⟨_, hterminal⟩

/-- The anchor of a chained build with the turns before it. -/
lemma exists_anchor {input : BuildRequestInput} {body : JsonValue} {id : JsString}
    (hbuild : buildRequest number input = .ok ⟨body, .responseChain id⟩) :
    ∃ anchor, scanAnchor number input.entries.reverse [] false = .ok (some anchor) ∧
      AnchorOf number input.entries anchor ∧ chainableId input anchor = some id ∧
      chainedRequest input anchor.trailing id = .ok ⟨body, .responseChain id⟩ := by
  obtain ⟨-, ⟨-, heq⟩ | ⟨-, -, hchoose⟩⟩ := buildRequest_eq_ok_iff.mp hbuild
  · cases heq
  · obtain ⟨anchor, hscan, hid, hchained⟩ := chained_of_chooseRequest hchoose
    have hspec := scanAnchor_spec hscan (List.forall_mem_nil _)
    rw [List.reverse_reverse, List.append_nil] at hspec
    exact ⟨anchor, hscan, hspec, hid, hchained⟩

/-! ## The context the provider sees -/

/-- The items that the provider sees for a request when it holds `held id` under the id of a
response. -/
def seen (held : JsString → List JsonValue) (body : JsonValue) : List JsonValue :=
  (body.textAt "previous_response_id").elim [] held ++ nativeItems body

/-- The provider holds under the id of a response what it saw for the request, followed by the
output. -/
def HeldLaw (number : List Char → Option JsonNumber) (held : JsString → List JsonValue)
    (request : AdapterRequest) (a : AssistantContext) : Prop :=
  ∀ body output, terminalResponseOf number a.output = .ok (.terminal body output) →
    ∀ id, responseIdOf body = some id → held id = seen held request.body ++ output

/-- A config without a continuation of its own names no response. -/
lemma ConfigOk.textAt {config : JsonValue} (h : ConfigOk config) :
    config.textAt "previous_response_id" = none := by
  have hfield := h.2.1 "previous_response_id" (List.mem_cons_self ..)
  unfold JsonValue.textAt
  rw [Option.isSome_eq_false_iff.mp hfield |> Option.isNone_iff_eq_none.mp]

/-- What the provider sees for a stateless request. -/
lemma seen_stateless {held : JsString → List JsonValue} {input : BuildRequestInput}
    {request : AdapterRequest} (hconfig : ConfigOk input.turnConfig)
    (h : statelessRequest number input = .ok request) :
    seen held request.body =
      input.entries.flatMap (contextItems number) ++ nativeItems input.turnConfig := by
  obtain ⟨-, rfl⟩ := (statelessRequest_eq_ok_iff hconfig.1).mp h
  unfold seen
  rw [nativeItems_set hconfig.1, JsonValue.textAt, JsonValue.get_set hconfig.1,
    if_neg (by decide)]
  change (input.turnConfig.textAt "previous_response_id").elim [] held ++ _ = _
  rw [hconfig.textAt]
  rfl

/-- A stateless build over the entries succeeds, for some credential and time. -/
def Replayable (number : List Char → Option JsonNumber) (input : BuildRequestInput) : Prop :=
  ∃ input' body, input'.entries = input.entries ∧ input'.turnConfig = input.turnConfig ∧
    buildRequest number input' = .ok ⟨body, .statelessReplay⟩

/-- Over a history that is not empty, a stateless build reads all inputs and answers. -/
lemma Replayable.readable {input : BuildRequestInput} (h : Replayable number input)
    (hne : input.entries ≠ []) :
    (∀ e ∈ input.entries, InputReadable e.userNative ∧ Resolves number e) ∧
      (∀ e ∈ input.entries, checkEntry e = .ok ()) := by
  obtain ⟨input', body, hentries, -, hbuild⟩ := h
  obtain ⟨hconfig, ⟨hnil, -⟩ | ⟨-, hchecks, hchoose⟩⟩ := buildRequest_eq_ok_iff.mp hbuild
  · exact absurd (hentries ▸ hnil) hne
  · rcases chooseRequest_cases hchoose with hstateless | ⟨_, _, heq⟩
    · obtain ⟨⟨hall, -⟩, -⟩ := (statelessRequest_eq_ok_iff hconfig.1).mp hstateless
      exact ⟨hentries ▸ hall, hentries ▸ hchecks⟩
    · cases heq

/-- The scan ends when all answers resolve. -/
lemma exists_scanAnchor {reversed trailing : List AssembledContextEntry} {payloadFailure : Bool}
    (h : ∀ e ∈ reversed, Resolves number e) :
    ∃ result, scanAnchor number reversed trailing payloadFailure = .ok result := by
  induction reversed generalizing trailing payloadFailure with
  | nil => exact ⟨none, rfl⟩
  | cons e rest ih =>
    obtain ⟨he, hrest⟩ := List.forall_mem_cons.mp h
    unfold scanAnchor
    split
    · exact ih hrest
    · next a ha =>
      obtain ⟨r, hr⟩ := he a ha
      rw [hr]
      cases r with
      | providerFailed => exact ih hrest
      | terminal body output => exact ⟨_, rfl⟩

/-- A build over readable turns that cannot chain is stateless. -/
lemma exists_stateless {input : BuildRequestInput} (hconfig : ConfigOk input.turnConfig)
    (hchecks : ∀ e ∈ input.entries, checkEntry e = .ok ())
    (hall : ∀ e ∈ input.entries, InputReadable e.userNative ∧ Resolves number e)
    (hown : input.turnConfig.get "input" = none ∨ InputReadable input.turnConfig)
    (hunchained : ∀ anchor, scanAnchor number input.entries.reverse [] false = .ok (some anchor) →
      chainableId input anchor = none) :
    ∃ body, buildRequest number input = .ok ⟨body, .statelessReplay⟩ := by
  by_cases hnil : input.entries = []
  · exact ⟨_, buildRequest_eq_ok_iff.mpr ⟨hconfig, .inl ⟨hnil, rfl⟩⟩⟩
  · obtain ⟨body, hstateless⟩ : ∃ body, statelessRequest number input = .ok ⟨body, .statelessReplay⟩ :=
      ⟨_, (statelessRequest_eq_ok_iff hconfig.1).mpr ⟨⟨hall, hown⟩, rfl⟩⟩
    refine ⟨body, buildRequest_eq_ok_iff.mpr ⟨hconfig, .inr ⟨hnil, hchecks, ?_⟩⟩⟩
    obtain ⟨found, hscan⟩ : ∃ found, scanAnchor number input.entries.reverse [] false = .ok found :=
      exists_scanAnchor fun e he => (hall e (List.mem_reverse.mp he)).2
    unfold chooseRequest
    rw [hscan, except_ok_bind]
    cases found with
    | none => exact hstateless
    | some anchor =>
      dsimp only
      rw [hunchained anchor hscan]
      exact hstateless

/-- An anchor that is too old is not chained on. -/
lemma chainableId_of_old {input : BuildRequestInput} {anchor : Anchor}
    (h : anchorMaxAgeMs ≤ input.nowMs - anchor.assistant.completedAtMs) :
    chainableId input anchor = none := by
  refine Option.filter_eq_none_iff.mpr fun id _ hconditions => ?_
  exact absurd (of_decide_eq_true hconditions).2.2.2.2.2 (not_lt.mpr h)

/-- Readable turns can be replayed. -/
lemma replayable_of_readable {input : BuildRequestInput} (hconfig : ConfigOk input.turnConfig)
    (hchecks : ∀ e ∈ input.entries, checkEntry e = .ok ())
    (hall : ∀ e ∈ input.entries, InputReadable e.userNative ∧ Resolves number e)
    (hown : input.turnConfig.get "input" = none ∨ InputReadable input.turnConfig) :
    Replayable number input := by
  obtain ⟨found, hscan⟩ : ∃ found, scanAnchor number input.entries.reverse [] false = .ok found :=
    exists_scanAnchor fun e he => (hall e (List.mem_reverse.mp he)).2
  -- At this time every anchor is too old.
  set late : BuildRequestInput := { input with
    nowMs := (found.elim 0 fun anchor => anchor.assistant.completedAtMs) + anchorMaxAgeMs }
  have hunchained : ∀ anchor, scanAnchor number late.entries.reverse [] false = .ok (some anchor) →
      chainableId late anchor = none := by
    intro anchor hanchor
    obtain rfl := Except.ok.inj (hscan.symm.trans hanchor)
    refine chainableId_of_old ?_
    change anchorMaxAgeMs ≤
      anchor.assistant.completedAtMs + anchorMaxAgeMs - anchor.assistant.completedAtMs
    omega
  obtain ⟨body, hbody⟩ : ∃ body, buildRequest number late = .ok ⟨body, .statelessReplay⟩ :=
    exists_stateless hconfig hchecks hall hown hunchained
  exact ⟨late, body, rfl, rfl, hbody⟩

/-- **Chaining refines replay.** On a history built by the adapter, if the provider holds what it saw
and answered, then whenever a stateless build succeeds the provider sees the same items however the
request was built: the input and output items of all turns, then the input of the turn itself. -/
theorem chaining_refines_replay {held : JsString → List JsonValue}
    (hhistory : BuiltHistory number (HeldLaw number held) entries) {input : BuildRequestInput}
    {request : AdapterRequest} (hentries : input.entries = entries)
    (hbuild : buildRequest number input = .ok request) (hreplayable : Replayable number input) :
    seen held request.body =
      entries.flatMap (contextItems number) ++ nativeItems input.turnConfig := by
  obtain ⟨n, hn⟩ : ∃ n, entries.length = n := ⟨_, rfl⟩
  induction n using Nat.strong_induction_on generalizing entries input request with
  | _ n ih =>
    obtain ⟨hconfig, ⟨hnil, rfl⟩ | ⟨hne, hchecks, hchoose⟩⟩ := buildRequest_eq_ok_iff.mp hbuild
    · rw [← hentries, hnil, seen, hconfig.textAt]
      rfl
    · rcases chooseRequest_cases hchoose with hstateless | ⟨body, id, rfl⟩
      · rw [seen_stateless hconfig hstateless, hentries]
      · obtain ⟨anchor, -, hanchor, hid, hchained⟩ := exists_anchor hbuild
        obtain ⟨⟨before, hsplit⟩, hassistant, ⟨output, hterminal⟩, hsilent⟩ := hanchor
        obtain ⟨hread, hbefore⟩ := hreplayable.readable hne
        rw [hsplit] at hread hbefore
        rw [hentries] at hsplit
        -- The turn of the anchor could have been built without a chain, too.
        obtain ⟨hhistory', hbuilt⟩ := hhistory.split hsplit
        obtain ⟨input', request', hinput', hturn', hbuild', hlaw⟩ := hbuilt _ hassistant
        have hlength : before.length < n := by
          rw [← hn, hsplit, List.length_append, List.length_cons]
          omega
        obtain ⟨hreadBefore, hreadAnchor⟩ := List.forall_mem_append.mp hread
        have hreplayable' : Replayable number input' := by
          refine replayable_of_readable (buildRequest_eq_ok_iff.mp hbuild').1
            (hinput' ▸ (List.forall_mem_append.mp hbefore).1) (hinput' ▸ hreadBefore) (.inr ?_)
          rw [hturn']
          exact (List.forall_mem_cons.mp hreadAnchor).1.1
        have hseen := ih _ hlength hhistory' hinput' hbuild' hreplayable' rfl
        have hresponse : responseIdOf anchor.body = some id := (Option.filter_eq_some_iff.mp hid).1
        have hheld := hlaw _ _ hterminal id hresponse
        obtain ⟨-, hparent, hitems⟩ := chainedRequest_spec hconfig.1 hchained
        have htrailing : anchor.trailing.flatMap (contextItems number) =
            anchor.trailing.flatMap fun e => nativeItems e.userNative :=
          List.flatMap_congr fun e he => (hsilent e he).contextItems
        rw [seen, hparent, Option.elim_some, hheld, hseen, hitems, hsplit, List.flatMap_append,
          List.flatMap_cons, contextItems_of_terminal hassistant hterminal, htrailing, hturn']
        simp only [List.append_assoc]

/-! ## Falling back -/

/-- The call can still be made when chaining is out of the question: with another credential, or once
the anchor is too old, it succeeds with a stateless body. -/
def FallsBack (number : List Char → Option JsonNumber) (input : BuildRequestInput) : Prop :=
  ∀ (credentialId : Uuid) (nowMs : ℤ), (credentialId ≠ input.activeCredentialId ∨
    ∀ anchor, scanAnchor number input.entries.reverse [] false = .ok (some anchor) →
      anchorMaxAgeMs ≤ nowMs - anchor.assistant.completedAtMs) →
  ∃ body, buildRequest number
    { input with activeCredentialId := credentialId, nowMs := nowMs } =
      .ok ⟨body, .statelessReplay⟩

/-- **When a chained request can fall back.** Over a history built by the adapter, a call that chains
succeeds without the chain exactly when the stored input of every earlier turn is a text or a list,
and the turn's own input is absent, a text or a list. -/
theorem chaining_fallback_iff (hhistory : BuiltHistory number law entries)
    {input : BuildRequestInput} (hentries : input.entries = entries) {body : JsonValue}
    {id : JsString} (hbuild : buildRequest number input = .ok ⟨body, .responseChain id⟩) :
    FallsBack number input ↔ (∀ e ∈ entries, InputReadable e.userNative) ∧
      (input.turnConfig.get "input" = none ∨ InputReadable input.turnConfig) := by
  have hresolves := hhistory.resolves hentries hbuild
  obtain ⟨hconfig, ⟨-, heq⟩ | ⟨hne, hchecks, -⟩⟩ := buildRequest_eq_ok_iff.mp hbuild
  · cases heq
  obtain ⟨anchor, hscan, -, hid, -⟩ := exists_anchor hbuild
  have hcredential : anchor.assistant.providerCredentialId = some input.activeCredentialId :=
    (of_decide_eq_true (Option.filter_eq_some_iff.mp hid).2).2.2.1
  constructor
  · intro hfalls
    obtain ⟨body', hbody'⟩ := hfalls input.activeCredentialId
      (anchor.assistant.completedAtMs + anchorMaxAgeMs) (.inr fun anchor' hanchor' => by
        cases hscan.symm.trans hanchor'
        omega)
    obtain ⟨-, ⟨hnil, -⟩ | ⟨-, -, hchoose⟩⟩ := buildRequest_eq_ok_iff.mp hbody'
    · exact absurd hnil hne
    · rcases chooseRequest_cases hchoose with hstateless | ⟨_, _, heq⟩
      · obtain ⟨⟨hall, hown⟩, -⟩ := (statelessRequest_eq_ok_iff hconfig.1).mp hstateless
        exact ⟨fun e he => (hall e (hentries ▸ he)).1, hown⟩
      · cases heq
  · rintro ⟨hread, hown⟩ credentialId nowMs hconditions
    refine exists_stateless hconfig hchecks (fun e he => ?_) hown fun anchor' hanchor' => ?_
    · have he' : e ∈ entries := hentries ▸ he
      exact ⟨hread e he', hresolves e he'⟩
    · obtain rfl := Option.some.inj (Except.ok.inj (hscan.symm.trans hanchor'))
      rcases hconditions with hother | hold
      · refine Option.filter_eq_none_iff.mpr fun _ _ h => hother ?_
        exact (Option.some.inj (hcredential.symm.trans (of_decide_eq_true h).2.2.1)).symm
      · exact chainableId_of_old (hold anchor hscan)

end History

/-! ## Two runs -/

/-- Without numerals in the texts. -/
def noNumbers : List Char → Option JsonNumber := fun _ => none

/-- An answered first turn. -/
def sampleFirstTurn (native : JsonValue) : AssembledContextEntry where
  sourceProvider := "openai"
  sourceModel := []
  selectedAttemptProviderFailed := false
  userNative := native
  assistant := some ⟨some 1, 0, .response (.obj [(jsString "id", .text "resp_1"),
    (jsString "output", .arr [])])⟩

/-- The call for the second turn. -/
def sampleCall (first : JsonValue) : BuildRequestInput :=
  ⟨[sampleFirstTurn first], .obj [(jsString "input", .text "next")], [], 1, 0⟩

/-- A request whose content the provider fills in from a stored prompt. -/
def promptTurn : JsonValue := .obj [(jsString "prompt", .text "pmpt_1")]

/-- A request with a text. -/
def textTurn : JsonValue := .obj [(jsString "input", .text "first")]

/-- The body of the second turn when it chains. -/
def sampleBody : JsonValue :=
  .obj [(jsString "input", .text "next"), (jsString "previous_response_id", .text "resp_1")]

/-- An answered first turn is a history if its request was built. -/
lemma sampleHistory {law : AdapterRequest → AssistantContext → Prop} {first : JsonValue}
    (hbuild : buildRequest noNumbers ⟨[], first, [], 1, 0⟩ = .ok ⟨first, .statelessReplay⟩)
    (hlaw : ∀ a, (sampleFirstTurn first).assistant = some a → law ⟨first, .statelessReplay⟩ a) :
    BuiltHistory noNumbers law [sampleFirstTurn first] := by
  have hturn : BuiltHistory noNumbers law ([] ++ [sampleFirstTurn first]) :=
    .turn .nil fun a ha => ⟨_, _, rfl, rfl, hbuild, hlaw a ha⟩
  exact hturn

/-- An item of an answer. -/
def sampleMessage : JsonValue :=
  .obj [(jsString "type", .text "message"), (jsString "role", .text "assistant"),
    (jsString "content", .text "answer")]

/-- A first turn that was answered with this item. -/
def sampleAnsweredTurn : AssembledContextEntry :=
  { sampleFirstTurn textTurn with
    assistant := some ⟨some 1, 0, .response (.obj [(jsString "id", .text "resp_1"),
      (jsString "output", .arr [sampleMessage])])⟩ }

/-- A second turn without an answer. -/
def sampleSilentTurn : AssembledContextEntry :=
  { sampleFirstTurn (.obj [(jsString "input", .text "second")]) with assistant := none }

/-- The call for the third turn. -/
def sampleThirdCall : BuildRequestInput :=
  { sampleCall textTurn with entries := [sampleAnsweredTurn, sampleSilentTurn] }

/-- Its body chains on the first turn and repeats the input of the second one. -/
def sampleThirdBody : JsonValue :=
  .obj [(jsString "input", .arr [userMessage (jsString "second"), userMessage (jsString "next")]),
    (jsString "previous_response_id", .text "resp_1")]

/-- What the provider holds after the first turn. -/
def sampleHeld (_ : JsString) : List JsonValue := [userMessage (jsString "first"), sampleMessage]

/-- The theorem on chaining at a turn that chains over a turn without an answer. -/
theorem chaining_refines_replay_sample :
    seen sampleHeld sampleThirdBody =
      [sampleAnsweredTurn, sampleSilentTurn].flatMap (contextItems noNumbers) ++
        nativeItems sampleThirdCall.turnConfig := by
  have hfirst : BuiltHistory noNumbers (HeldLaw noNumbers sampleHeld)
      ([] ++ [sampleAnsweredTurn]) := by
    refine .turn .nil fun a ha => ⟨⟨[], textTurn, [], 1, 0⟩, _, rfl, rfl, rfl, ?_⟩
    cases ha
    intro body output hterminal id _
    have hresolved : terminalResponseOf noNumbers (.response (.obj [(jsString "id", .text "resp_1"),
      (jsString "output", .arr [sampleMessage])])) = .ok (.terminal _ [sampleMessage]) := rfl
    cases hresolved.symm.trans hterminal
    rfl
  have hhistory : BuiltHistory noNumbers (HeldLaw noNumbers sampleHeld)
      ([sampleAnsweredTurn] ++ [sampleSilentTurn]) :=
    .turn hfirst fun a ha => by cases ha
  have hbuild : buildRequest noNumbers sampleThirdCall =
    .ok ⟨sampleThirdBody, .responseChain (jsString "resp_1")⟩ := rfl
  have hreplayable : Replayable noNumbers sampleThirdCall :=
    ⟨{ sampleThirdCall with activeCredentialId := 2 }, _, rfl, rfl, rfl⟩
  exact chaining_refines_replay hhistory rfl hbuild hreplayable

/-- The theorem on falling back at a turn that chains. -/
theorem chaining_fallback_sample :
    FallsBack noNumbers (sampleCall textTurn) ↔
      (∀ e ∈ [sampleFirstTurn textTurn], InputReadable e.userNative) ∧
        ((sampleCall textTurn).turnConfig.get "input" = none ∨
          InputReadable (sampleCall textTurn).turnConfig) := by
  have hhistory : BuiltHistory noNumbers (fun _ _ => True) [sampleFirstTurn textTurn] :=
    sampleHistory rfl fun _ _ => trivial
  have hbuild : buildRequest noNumbers (sampleCall textTurn) =
    .ok ⟨sampleBody, .responseChain (jsString "resp_1")⟩ := rfl
  exact chaining_fallback_iff hhistory rfl hbuild

/-- After a first turn that sends a stored prompt and no input, the second turn chains, and with
another credential it is refused. -/
theorem prompt_turn_strands_branch :
    BuiltHistory noNumbers (fun _ _ => True) [sampleFirstTurn promptTurn] ∧
      buildRequest noNumbers (sampleCall promptTurn) =
        .ok ⟨sampleBody, .responseChain (jsString "resp_1")⟩ ∧
      ¬FallsBack noNumbers (sampleCall promptTurn) := by
  refine ⟨sampleHistory rfl fun _ _ => trivial, rfl, fun hfalls => ?_⟩
  obtain ⟨body, hbody⟩ := hfalls 2 0 (.inl (by decide))
  have hrefused : buildRequest noNumbers
      { sampleCall promptTurn with activeCredentialId := 2, nowMs := 0 } =
    .error (.refused .contextUnreplayable "history_input_shape_unknown") := rfl
  cases hrefused.symm.trans hbody

end Responses

end GovAI
