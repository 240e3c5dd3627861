import Mathlib.Algebra.Order.Field.Rat
import Mathlib.Tactic.NormNum
import Mathlib.Tactic.Positivity
import Barqium.ForStd.Except
import Barqium.Native.Providers
import Barqium.Spec.StreamingCorrect

/-!
# What providers report

A response names its provider and has a cost, and every chunk of a stream names its provider.
Groq and Ollama hand on what the OpenAI provider makes, with some fields replaced.

## Key results

- `costs_agree_iff`: when the prices of OpenAI give the cost that those of Groq give.
- `exists_chunk_iff`: when a stream of the OpenAI provider has a chunk.
- `reportsItself_providers`: which providers report their own name and price
-/

namespace Barqium.Native.Ai

variable {TransportError : Type} {serde : SerdeJson}

/-- The cost of a usage at the price of a model, 0 for a model without price. -/
def costAt (pricing : Option ModelPricing) (usage : TokenUsage) : ℚ :=
  (pricing.map fun p => p.cost usage).getD 0

/-- The responses that echo the requested model and the chunks are those of the provider, at its
    own price. -/
structure ReportsItself (p : Provider TransportError serde) (req : ChatRequest) : Prop where
  chat : ∀ resp, p.chat req = .ok resp → resp.model = req.model →
    resp.provider = p.name ∧ resp.costUsd = costAt (p.pricing req.model) resp.usage
  stream : ∀ items, p.chatStream req = .ok items → ∀ chunk, .ok chunk ∈ items →
    chunk.provider = p.name

/-! ## Prices -/

/-- A price that is found is one of the table, under a name of the model. -/
private theorem findPricing_eq_some {isOn : String → Bool}
    {table : List (List String × ModelPricing)}
    {price : ModelPricing} (h : findPricing isOn table = some price) :
    ∃ line ∈ table, price = line.2 ∧ ∃ name ∈ line.1, isOn name = true := by
  obtain ⟨line, hfind, rfl⟩ := Option.map_eq_some_iff.mp h
  have hany : line.1.any isOn = true := List.find?_some
    (p := fun line : List String × ModelPricing => line.1.any isOn) hfind
  exact ⟨line, List.mem_of_find?_eq_some hfind, rfl, List.any_eq_true.mp hany⟩

/-- All prices of a table are above 0. -/
def Priced (table : List (List String × ModelPricing)) : Prop :=
  ∀ line ∈ table, 0 < line.2.promptPer1k ∧ 0 < line.2.completionPer1k

/-- All prices of OpenAI are positive. -/
private theorem priced_openai : Priced openaiPrices := by
  simp only [Priced, openaiPrices, List.forall_mem_cons]
  norm_num

/-- All prices of Groq are positive. -/
private theorem priced_groq : Priced groqPrices := by
  simp only [Priced, groqPrices, List.forall_mem_cons]
  norm_num

/-- No model is on both tables. -/
private theorem disjoint_prices :
    ∀ name ∈ openaiPrices.flatMap Prod.fst, name ∉ groqPrices.flatMap Prod.fst :=
  List.forall_iff_forall_mem.mp (by decide)

/-- At positive prices only an unused model costs nothing. -/
theorem cost_eq_zero_iff {p : ModelPricing} (hprompt : 0 < p.promptPer1k)
    (hcompletion : 0 < p.completionPer1k) (usage : TokenUsage) :
    p.cost usage = 0 ↔ usage.promptTokens = 0 ∧ usage.completionTokens = 0 := by
  have hzero : ∀ n : UInt32, (n.toNat : ℚ) / 1000 = 0 ↔ n = 0 := by
    intro n
    rw [div_eq_zero_iff, Nat.cast_eq_zero, or_iff_left (by norm_num), ← UInt32.toNat_inj]
    rfl
  rw [ModelPricing.cost, add_eq_zero_iff_of_nonneg (by positivity) (by positivity),
    mul_eq_zero_iff_right hprompt.ne', mul_eq_zero_iff_right hcompletion.ne', hzero, hzero]

/-- A model costs nothing if it has no price or is not used. -/
theorem costAt_eq_zero_iff {isOn : String → Bool} {table : List (List String × ModelPricing)}
    (htable : Priced table) (usage : TokenUsage) :
    costAt (findPricing isOn table) usage = 0 ↔
      findPricing isOn table = none ∨ usage.promptTokens = 0 ∧ usage.completionTokens = 0 := by
  cases hprice : findPricing isOn table with
  | none => simp [costAt]
  | some price =>
    obtain ⟨line, hline, rfl, -⟩ := findPricing_eq_some hprice
    obtain ⟨hprompt, hcompletion⟩ := htable line hline
    simp only [costAt, Option.map_some, Option.getD_some, reduceCtorEq, false_or]
    exact cost_eq_zero_iff hprompt hcompletion usage

/-- A model with a price of OpenAI has none of Groq. -/
private theorem groqPricing_eq_none {model : String} (h : openaiPricing model ≠ none) :
    groqPricing model = none := by
  obtain ⟨price, hprice⟩ := Option.ne_none_iff_exists'.mp h
  obtain ⟨line, hline, -, name, hname, hmodel⟩ := findPricing_eq_some hprice
  by_contra hgroq
  obtain ⟨price', hprice'⟩ := Option.ne_none_iff_exists'.mp hgroq
  obtain ⟨other, hother, -, name', hname', hmodel'⟩ := findPricing_eq_some hprice'
  have hsame : name' = name := (of_decide_eq_true hmodel').trans (of_decide_eq_true hmodel).symm
  exact disjoint_prices name (List.mem_flatMap.mpr ⟨line, hline, hname⟩)
    (List.mem_flatMap.mpr ⟨other, hother, hsame ▸ hname'⟩)

/-- The prices of OpenAI give the cost that those of Groq give for models without any price, and
    where there is nothing to pay. -/
theorem costs_agree_iff (model : String) (usage : TokenUsage) :
    costAt (openaiPricing model) usage = costAt (groqPricing model) usage ↔
      (openaiPricing model = none ∧ groqPricing model = none) ∨
        (usage.promptTokens = 0 ∧ usage.completionTokens = 0) := by
  by_cases hopenai : openaiPricing model = none
  · -- OpenAI charges nothing, so Groq must not either
    have hzero : costAt (openaiPricing model) usage = 0 := by rw [hopenai]; rfl
    rw [hzero, eq_comm, groqPricing, costAt_eq_zero_iff priced_groq]
    simp [hopenai]
  · -- the tables are disjoint, so Groq charges nothing
    have hgroq := groqPricing_eq_none hopenai
    have hzero : costAt (groqPricing model) usage = 0 := by rw [hgroq]; rfl
    rw [hzero, openaiPricing, costAt_eq_zero_iff priced_openai]
    simp only [openaiPricing] at hopenai
    simp [hopenai]

/-! ## Streams -/

/-- The payload of a data line decodes to a chunk with a choice. -/
def DecodesToChunk (serde : SerdeJson) (line : List Char) : Prop :=
  Text.trim (ChatStream.payload line) ≠ "[DONE]".toList ∧
    ∃ v chunk, serde.fromStr (ChatStream.payload line) = .ok v ∧
      ChatStream.OpenAi.OaiStreamChunk.fromValue v = some chunk ∧ chunk.choices ≠ []

/-- No line of a delivered chunk of bytes decodes to a chunk of the stream. -/
def NoChunkLine (serde : SerdeJson) (results : List (Except TransportError (List UInt8))) : Prop :=
  ∀ bytes, .ok bytes ∈ results → ∀ line ∈ Utf8.lines (Utf8.fromLossy bytes),
    ChatStream.startsWithData line = true → ¬ DecodesToChunk serde line

/-- A chunk of an OpenAI stream names OpenAI. -/
private theorem openAi_event_eq_ok {line : List Char} {chunk : ChatChunk}
    (h : ChatStream.OpenAi.event serde line =
      (some (.ok chunk) : Option (ChatStream.Item TransportError serde))) :
    chunk.provider = "openai" ∧ DecodesToChunk serde line := by
  -- a line that is not the end mark, parses, decodes and has a choice
  unfold ChatStream.OpenAi.event at h
  split at h
  case isTrue => cases h
  case isFalse hdone =>
    split at h
    case h_1 => cases h
    case h_2 v hparse =>
      split at h
      case h_1 => cases h
      case h_2 decoded hdecoded =>
        obtain ⟨first, hfirst, hchunk⟩ := Option.map_eq_some_iff.mp h
        have hchoices : decoded.choices ≠ [] := List.ne_nil_of_mem (List.mem_of_mem_head? hfirst)
        cases hchunk
        exact ⟨rfl, hdone, v, decoded, hparse, hdecoded, hchoices⟩

/-- A line that decodes gives a chunk. -/
private theorem exists_openAi_event {line : List Char} (h : DecodesToChunk serde line) :
    ∃ chunk, ChatStream.OpenAi.event serde line =
      (some (.ok chunk) : Option (ChatStream.Item TransportError serde)) := by
  obtain ⟨hdone, v, decoded, hparse, hdecoded, hchoices⟩ := h
  obtain ⟨first, rest, hcons⟩ := List.exists_cons_of_ne_nil hchoices
  unfold ChatStream.OpenAi.event
  rw [if_neg hdone, hparse]
  simp only [hdecoded, hcons, List.head?_cons, Option.map_some]
  exact ⟨_, rfl⟩

/-- Every chunk of the OpenAI provider has its name. -/
private theorem openAi_chunk_provider {results : List (Except TransportError (List UInt8))}
    {chunk : ChatChunk} (h : .ok chunk ∈ ChatStream.OpenAi.chatStream serde results) :
    chunk.provider = "openai" := by
  obtain ⟨_, -, _, -, -, hevent⟩ := ChatStream.ok_mem_decode.mp h
  exact (openAi_event_eq_ok hevent).1

/-- A stream of the OpenAI provider has a chunk if a line of the reply decodes to one. -/
theorem exists_chunk_iff (results : List (Except TransportError (List UInt8))) :
    (∃ chunk, .ok chunk ∈ ChatStream.OpenAi.chatStream serde results) ↔
      ¬ NoChunkLine serde results := by
  constructor
  · rintro ⟨chunk, hchunk⟩ hnone
    obtain ⟨bytes, hbytes, line, hline, hdata, hevent⟩ := ChatStream.ok_mem_decode.mp hchunk
    exact hnone bytes hbytes line hline hdata (openAi_event_eq_ok hevent).2
  · intro hnot
    simp only [NoChunkLine, not_forall, not_not] at hnot
    obtain ⟨bytes, hbytes, line, hline, hdata, hdecodes⟩ := hnot
    obtain ⟨chunk, hevent⟩ := exists_openAi_event hdecodes
    exact ⟨chunk, ChatStream.ok_mem_decode.mpr ⟨bytes, hbytes, line, hline, hdata, hevent⟩⟩

/-- A chunk of an Anthropic stream names Anthropic. -/
private theorem anthropic_chunk_provider {id : String}
    {results : List (Except TransportError (List UInt8))} {chunk : ChatChunk}
    (h : .ok chunk ∈ ChatStream.Anthropic.chatStream serde id results) :
    chunk.provider = "anthropic" := by
  obtain ⟨_, -, line, -, -, hevent⟩ := ChatStream.ok_mem_decode.mp h
  unfold ChatStream.Anthropic.event at hevent
  obtain ⟨v, -, hevent⟩ := Option.bind_eq_some_iff.mp hevent
  obtain ⟨ev, -, hevent⟩ := Option.bind_eq_some_iff.mp hevent
  split at hevent
  case isTrue =>
    -- a `content_block_delta`, of which a chunk is made if its delta is text
    obtain ⟨delta, -, hevent⟩ := Option.bind_eq_some_iff.mp hevent
    split at hevent
    case isTrue => cases hevent
    case isFalse =>
      cases hevent
      rfl
  case isFalse =>
    split at hevent
    case isTrue =>
      obtain ⟨delta, -, hevent⟩ := Option.bind_eq_some_iff.mp hevent
      cases hevent
      rfl
    case isFalse => cases hevent

/-- A chunk of a Bedrock stream names Bedrock. -/
private theorem bedrock_chunk_provider {id : String}
    {results : List (Except TransportError (List UInt8))} {chunk : ChatChunk}
    (h : .ok chunk ∈ ChatStream.Bedrock.chatStream serde id results) :
    chunk.provider = "bedrock" := by
  obtain ⟨_, -, line, -, -, hevent⟩ := ChatStream.ok_mem_decode.mp h
  unfold ChatStream.Bedrock.event at hevent
  obtain ⟨v, -, hevent⟩ := Option.bind_eq_some_iff.mp hevent
  obtain ⟨text, -, hevent⟩ := Option.bind_eq_some_iff.mp hevent
  cases hevent
  rfl

/-! ## Providers -/

section Providers

variable (env : Env TransportError) (req : ChatRequest)

/-- The decoded reply of an OpenAI-compatible upstream to a chat. -/
def OpenAiProvider.Replies (serde : SerdeJson) (p : OpenAiProvider) (env : Env TransportError)
    (req : ChatRequest) (oai : OaiResponse) : Prop :=
  ∃ reply, (p.send env req false : Except (AiError TransportError serde.Error) _) = .ok reply ∧
    (env.json OaiResponse.fromValue reply : Except (AiError TransportError serde.Error) _) =
      .ok oai

/-- The chunks of bytes of its reply to a stream. -/
def OpenAiProvider.Streams (serde : SerdeJson) (p : OpenAiProvider) (env : Env TransportError)
    (req : ChatRequest) (results : List (Except TransportError (List UInt8))) : Prop :=
  ∃ reply, (p.send env req true : Except (AiError TransportError serde.Error) _) = .ok reply ∧
    reply.chunks = results

/-- A chat succeeds with the reply of the service. -/
theorem OpenAiProvider.chat_eq_ok {p : OpenAiProvider} {resp : ChatResponse} :
    (p.chat env req : Except (AiError TransportError serde.Error) _) = .ok resp ↔
      ∃ oai, p.Replies serde env req oai ∧ resp = OpenAiProvider.response oai := by
  unfold OpenAiProvider.chat OpenAiProvider.Replies
  constructor
  · intro h
    obtain ⟨reply, hreply, h⟩ := Except.bind_eq_ok_iff.mp h
    obtain ⟨oai, hoai, h⟩ := Except.bind_eq_ok_iff.mp h
    exact ⟨oai, ⟨reply, hreply, hoai⟩, (Except.ok.inj h).symm⟩
  · rintro ⟨oai, ⟨reply, hreply, hoai⟩, rfl⟩
    exact Except.bind_eq_ok_iff.mpr
      ⟨reply, hreply, Except.bind_eq_ok_iff.mpr ⟨oai, hoai, rfl⟩⟩

/-- A stream succeeds with the chunks of the service. -/
theorem OpenAiProvider.chatStream_eq_ok {p : OpenAiProvider}
    {items : List (ChatStream.Item TransportError serde)} :
    p.chatStream env req = .ok items ↔
      ∃ results, p.Streams serde env req results ∧
        items = ChatStream.OpenAi.chatStream serde results := by
  unfold OpenAiProvider.chatStream OpenAiProvider.Streams
  constructor
  · intro h
    obtain ⟨reply, hreply, h⟩ := Except.bind_eq_ok_iff.mp h
    exact ⟨reply.chunks, ⟨reply, hreply, rfl⟩, (Except.ok.inj h).symm⟩
  · rintro ⟨results, ⟨reply, hreply, rfl⟩, rfl⟩
    exact Except.bind_eq_ok_iff.mpr ⟨reply, hreply, rfl⟩

/-- A provider that replaces fields of the response of the OpenAI provider. -/
theorem OpenAiProvider.chat_bind_eq_ok {p : OpenAiProvider} {patch : ChatResponse → ChatResponse}
    {resp : ChatResponse} :
    ((p.chat env req : Except (AiError TransportError serde.Error) _) >>=
        fun resp => .ok (patch resp)) = .ok resp ↔
      ∃ oai, p.Replies serde env req oai ∧ resp = patch (OpenAiProvider.response oai) := by
  rw [Except.bind_eq_ok_iff]
  simp only [p.chat_eq_ok env req]
  constructor
  · rintro ⟨_, ⟨oai, hoai, rfl⟩, h⟩
    exact ⟨oai, hoai, (Except.ok.inj h).symm⟩
  · rintro ⟨oai, hoai, rfl⟩
    exact ⟨_, ⟨oai, hoai, rfl⟩, rfl⟩

/-- The stream of the OpenAI provider passes for that of another one as long as it has no
    chunk. -/
theorem OpenAiProvider.stream_named_iff (serde : SerdeJson) (p : OpenAiProvider) {name : String}
    (hname : "openai" ≠ name) :
    (∀ items : List (ChatStream.Item TransportError serde), p.chatStream env req = .ok items →
        ∀ chunk, .ok chunk ∈ items → chunk.provider = name) ↔
      ∀ results, p.Streams serde env req results → NoChunkLine serde results := by
  constructor
  · intro h results hresults
    by_contra hnot
    obtain ⟨chunk, hchunk⟩ := (exists_chunk_iff results).mpr hnot
    have hsame := h _ ((p.chatStream_eq_ok env req).mpr ⟨results, hresults, rfl⟩) chunk hchunk
    exact hname ((openAi_chunk_provider hchunk).symm.trans hsame)
  · intro h items hitems chunk hchunk
    obtain ⟨results, hresults, rfl⟩ := (p.chatStream_eq_ok env req).mp hitems
    exact absurd (h results hresults) ((exists_chunk_iff results).mp ⟨chunk, hchunk⟩)

/-- OpenAI reports itself. -/
private theorem reportsItself_openai (p : OpenAiProvider) :
    ReportsItself (p.provider env : Provider TransportError serde) req where
  chat resp h hmodel := by
    obtain ⟨oai, -, rfl⟩ := (p.chat_eq_ok env req).mp h
    exact ⟨rfl, by rw [← hmodel]; rfl⟩
  stream items h chunk hchunk := by
    obtain ⟨results, -, rfl⟩ := (p.chatStream_eq_ok env req).mp h
    exact openAi_chunk_provider hchunk

/-- Anthropic reports itself. -/
private theorem reportsItself_anthropic (p : AnthropicProvider) :
    ReportsItself (p.provider env : Provider TransportError serde) req where
  chat resp h hmodel := by
    obtain ⟨reply, -, h⟩ := Except.bind_eq_ok_iff.mp h
    obtain ⟨ar, -, h⟩ := Except.bind_eq_ok_iff.mp h
    cases h
    exact ⟨rfl, by rw [← hmodel]; rfl⟩
  stream items h chunk hchunk := by
    obtain ⟨reply, -, h⟩ := Except.bind_eq_ok_iff.mp h
    cases h
    exact anthropic_chunk_provider hchunk

/-- Bedrock reports itself. -/
private theorem reportsItself_bedrock (p : BedrockProvider) :
    ReportsItself (p.provider env : Provider TransportError serde) req where
  chat resp h _ := by
    obtain ⟨reply, -, h⟩ := Except.bind_eq_ok_iff.mp h
    obtain ⟨cr, -, h⟩ := Except.bind_eq_ok_iff.mp h
    cases h
    exact ⟨rfl, rfl⟩
  stream items h chunk hchunk := by
    obtain ⟨reply, -, h⟩ := Except.bind_eq_ok_iff.mp h
    cases h
    exact bedrock_chunk_provider hchunk

/-- What the upstream of Groq has to reply so that the prices and the name of OpenAI do not
    show. -/
structure GroqUnnoticed (serde : SerdeJson) (p : GroqProvider) (env : Env TransportError)
    (req : ChatRequest) : Prop where
  price : ∀ oai, p.inner.Replies serde env req oai → oai.model = req.model →
    (openaiPricing req.model = none ∧ groqPricing req.model = none) ∨
      (oai.usage.promptTokens = 0 ∧ oai.usage.completionTokens = 0)
  stream : ∀ results, p.inner.Streams serde env req results → NoChunkLine serde results

/-- Groq reports itself exactly where nobody notices. -/
theorem reportsItself_groq_iff (p : GroqProvider) :
    ReportsItself (p.provider env : Provider TransportError serde) req ↔
      GroqUnnoticed serde p env req := by
  have hname : "openai" ≠ "groq" := by decide
  have hstream := p.inner.stream_named_iff env req serde hname
  have hchat : ∀ resp, (p.chat env req : Except (AiError TransportError serde.Error) _) = .ok resp ↔
      ∃ oai, p.inner.Replies serde env req oai ∧
        resp = { OpenAiProvider.response oai with provider := "groq" } :=
    fun resp => p.inner.chat_bind_eq_ok env req
  constructor
  · intro h
    -- the cost that is reported is that of the wrapped provider
    refine ⟨fun oai hoai hmodel => ?_, hstream.mp h.stream⟩
    have hcost := (h.chat _ ((hchat _).mpr ⟨oai, hoai, rfl⟩) hmodel).2
    refine (costs_agree_iff req.model (OpenAiProvider.response oai).usage).mp ?_
    rw [← hmodel] at hcost ⊢
    exact hcost
  · intro h
    refine ⟨fun resp hresp hmodel => ?_, hstream.mpr h.stream⟩
    obtain ⟨oai, hoai, rfl⟩ := (hchat resp).mp hresp
    have hagree := (costs_agree_iff req.model (OpenAiProvider.response oai).usage).mpr
      (h.price oai hoai hmodel)
    refine ⟨rfl, ?_⟩
    rw [← hmodel] at hagree ⊢
    exact hagree

/-- Ollama reports itself exactly if no stream has a chunk. -/
theorem reportsItself_ollama_iff (p : OllamaProvider) :
    ReportsItself (p.provider env : Provider TransportError serde) req ↔
      ∀ results, p.inner.Streams serde env req results → NoChunkLine serde results := by
  have hname : "openai" ≠ "ollama" := by decide
  have hstream := p.inner.stream_named_iff env req serde hname
  constructor
  · exact fun h => hstream.mp h.stream
  · intro h
    refine ⟨fun resp hresp _ => ?_, hstream.mpr h⟩
    obtain ⟨oai, -, rfl⟩ := (p.inner.chat_bind_eq_ok env req).mp hresp
    exact ⟨rfl, rfl⟩

/-- OpenAI, Anthropic and Bedrock report themselves. Groq and Ollama do exactly if the upstream
    sends no chunk, and Groq only if the price of OpenAI makes no difference. -/
theorem reportsItself_providers (serde : SerdeJson) (openai : OpenAiProvider)
    (anthropic : AnthropicProvider) (bedrock : BedrockProvider) (groq : GroqProvider)
    (ollama : OllamaProvider) :
    ReportsItself (openai.provider env : Provider TransportError serde) req ∧
      ReportsItself (anthropic.provider env : Provider TransportError serde) req ∧
      ReportsItself (bedrock.provider env : Provider TransportError serde) req ∧
      (ReportsItself (groq.provider env : Provider TransportError serde) req ↔
        GroqUnnoticed serde groq env req) ∧
      (ReportsItself (ollama.provider env : Provider TransportError serde) req ↔
        ∀ results, ollama.inner.Streams serde env req results → NoChunkLine serde results) :=
  ⟨reportsItself_openai env req openai, reportsItself_anthropic env req anthropic,
    reportsItself_bedrock env req bedrock, reportsItself_groq_iff env req groq,
    reportsItself_ollama_iff env req ollama⟩

end Providers

/-- A reply of Groq to a chat. -/
def llamaReply : Json :=
  .obj [("id", .str "1"), ("model", .str "llama-3.3-70b-versatile"), ("choices", .arr []),
    ("usage", .obj [("prompt_tokens", .num "1000"), ("completion_tokens", .num "1000"),
      ("total_tokens", .num "2000")])]

def llamaEnv : Env Unit where
  post _ _ _ := .ok ⟨200, .ok "", .ok llamaReply, []⟩
  decodeError _ := ()
  newUuid := ""
  sigv4Sign _ _ _ _ _ := ("", "")

def llamaRequest : ChatRequest := ⟨"llama-3.3-70b-versatile", [⟨.user, "Hello"⟩], none, none⟩

/-- It costs nothing. -/
theorem groq_reports_no_cost :
    ¬ ∀ (TransportError : Type) (serde : SerdeJson) (env : Env TransportError)
      (req : ChatRequest) (openai : OpenAiProvider) (anthropic : AnthropicProvider)
      (bedrock : BedrockProvider) (groq : GroqProvider) (ollama : OllamaProvider),
      ReportsItself (openai.provider env : Provider TransportError serde) req ∧
        ReportsItself (anthropic.provider env : Provider TransportError serde) req ∧
        ReportsItself (bedrock.provider env : Provider TransportError serde) req ∧
        ReportsItself (groq.provider env : Provider TransportError serde) req ∧
        ReportsItself (ollama.provider env : Provider TransportError serde) req := by
  intro h
  obtain ⟨-, -, -, hgroq, -⟩ := h Unit Decoder.hiSerde llamaEnv llamaRequest ⟨"key", "url"⟩ ⟨"key"⟩
    ⟨"region", "key", "secret"⟩ (.new "key") .new
  have hprice := ((reportsItself_groq_iff llamaEnv llamaRequest (.new "key")).mp hgroq).price
    ⟨"1", "llama-3.3-70b-versatile", [], ⟨1000, 1000, 2000⟩⟩ ⟨_, rfl, rfl⟩ rfl
  have hpriced : groqPricing llamaRequest.model ≠ none := by decide
  rcases hprice with ⟨-, hnone⟩ | ⟨hzero, -⟩
  · exact hpriced hnone
  · exact absurd hzero (by decide)

end Barqium.Native.Ai
