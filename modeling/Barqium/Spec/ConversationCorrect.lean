import Barqium.Native.Providers
import Mathlib.Data.List.Induction

/-!
# Conversations in requests

A conversation goes to Anthropic and Bedrock with its system messages apart from the turns. The
request keeps it if the system text has the contents of all system messages one behind the
other, and the turns are those of the conversation.

## Key results

- `splitSystem_eq`: the system text is that of the last system message.
- `keepsConversation_iff`: when nothing of a conversation is lost
-/

namespace Barqium.Native.Ai

/-- The parts stand in the text, in their order and without overlap. -/
inductive InOrder : List (List Char) → List Char → Prop where
  | nil (text : List Char) : InOrder [] text
  | cons {parts : List (List Char)} {text : List Char} (between part : List Char)
      (h : InOrder parts text) : InOrder (part :: parts) (between ++ part ++ text)

def systemContents (messages : List Message) : List String :=
  (messages.filter (·.role = .system)).map Message.content

def turns (messages : List Message) : List Message := messages.filter (·.role ≠ .system)

/-- What a request has of a conversation: the texts of its system field or blocks, and the
    contents of its turns. -/
structure Kept where
  system : List String
  turns : List String

def AnthropicRequest.kept (r : AnthropicRequest) : Kept :=
  ⟨r.system.toList, r.messages.map AnthropicMessage.content⟩

def ConverseRequest.kept (r : ConverseRequest) : Kept :=
  ⟨r.system.getD [], r.messages.flatMap ConverseMessage.content⟩

/-- Nothing of the conversation is lost. -/
structure KeepsConversation (messages : List Message) (kept : Kept) : Prop where
  system : InOrder ((systemContents messages).map String.toList)
    (kept.system.map String.toList).flatten
  turns : kept.turns = (turns messages).map Message.content

/-! ## Texts in order -/

/-- Parts that stand in order in a text are together no longer than it. -/
theorem InOrder.sum_length_le {parts : List (List Char)} {text : List Char}
    (h : InOrder parts text) : (parts.map List.length).sum ≤ text.length := by
  induction h with
  | nil text => exact Nat.zero_le _
  | cons between part _ ih =>
    simp only [List.map_cons, List.sum_cons, List.length_append]
    omega

/-- In the text of the last part there is room for empty parts only. -/
theorem inOrder_last_iff (parts : List (List Char)) (last : List Char) :
    InOrder (parts ++ [last]) last ↔ ∀ part ∈ parts, part = [] := by
  constructor
  · intro h part hpart
    -- the last part fills the text, so the lengths of the others add up to nothing
    have hsum := h.sum_length_le
    simp only [List.map_append, List.sum_append, List.map_cons, List.map_nil, List.sum_cons,
      List.sum_nil] at hsum
    have hzero : (parts.map List.length).sum = 0 := by omega
    rw [List.sum_eq_zero_iff_forall_eq_nat] at hzero
    exact List.length_eq_zero_iff.mp (hzero _ (List.mem_map_of_mem hpart))
  · intro h
    induction parts with
    | nil =>
      have hlast := InOrder.cons [] last (.nil [])
      rwa [List.nil_append, List.append_nil] at hlast
    | cons part parts ih =>
      obtain ⟨rfl, hparts⟩ := List.forall_mem_cons.mp h
      exact .cons [] [] (ih hparts)

/-! ## The split -/

/-- Every system message overwrites the one before it. -/
theorem splitSystem_eq (messages : List Message) :
    splitSystem messages = ((systemContents messages).getLast?, turns messages) := by
  induction messages using List.reverseRecOn with
  | nil => rfl
  | append_singleton messages m ih =>
    rw [splitSystem] at ih ⊢
    rw [List.foldl_concat, ih]
    by_cases hrole : m.role = .system
    · simp [systemContents, turns, hrole]
    · simp [systemContents, turns, hrole]

/-- What is left of a conversation when only the last system message is. -/
theorem keepsConversation_last_iff (messages : List Message) (kept : Kept)
    (hsystem : kept.system = (systemContents messages).getLast?.toList)
    (hturns : kept.turns = (turns messages).map Message.content) :
    KeepsConversation messages kept ↔
      ∀ content ∈ (systemContents messages).dropLast, content = "" := by
  have hiff : InOrder ((systemContents messages).map String.toList)
      (kept.system.map String.toList).flatten ↔
        ∀ content ∈ (systemContents messages).dropLast, content = "" := by
    rw [hsystem]
    cases systemContents messages using List.reverseRecOn with
    | nil => exact ⟨fun _ _ h => absurd h List.not_mem_nil, fun _ => .nil _⟩
    | append_singleton contents last =>
      -- the system text is the last content and nothing else
      rw [List.getLast?_concat, List.dropLast_concat, List.map_append]
      simp only [Option.toList_some, List.map_cons, List.map_nil, List.flatten_cons,
        List.flatten_nil, List.append_nil]
      rw [inOrder_last_iff, List.forall_mem_map]
      simp only [String.toList_eq_nil_iff]
  exact ⟨fun h => hiff.mp h.system, fun h => ⟨hiff.mpr h, hturns⟩⟩

/-- A request to either provider keeps the conversation if and only if all system messages but
    the last are empty. -/
theorem keepsConversation_iff (req : ChatRequest) (stream : Bool) :
    (KeepsConversation req.messages (AnthropicProvider.request req stream).kept ↔
        ∀ content ∈ (systemContents req.messages).dropLast, content = "") ∧
      (KeepsConversation req.messages (BedrockProvider.request req).kept ↔
        ∀ content ∈ (systemContents req.messages).dropLast, content = "") := by
  constructor
  · refine keepsConversation_last_iff _ _ ?_ ?_
    · simp [AnthropicProvider.request, AnthropicRequest.kept, splitSystem_eq]
    · simp [AnthropicProvider.request, AnthropicRequest.kept, splitSystem_eq]
  · refine keepsConversation_last_iff _ _ ?_ ?_
    · cases hlast : (systemContents req.messages).getLast? <;>
        simp [BedrockProvider.request, ConverseRequest.kept, splitSystem_eq, hlast]
    · simp [BedrockProvider.request, ConverseRequest.kept, splitSystem_eq, List.flatMap_map]
      exact List.flatMap_pure_eq_map _ _

/-- A conversation with two system messages. -/
def twoPrompts : ChatRequest where
  model := "claude-3-haiku-20240307"
  messages := [⟨.system, "Be brief."⟩, ⟨.user, "Hello"⟩, ⟨.system, "Answer in French."⟩]
  maxTokens := none
  temperature := none

/-- The first of them is lost. -/
theorem first_system_message_lost :
    ¬ ∀ (req : ChatRequest) (stream : Bool),
      KeepsConversation req.messages (AnthropicProvider.request req stream).kept ∧
        KeepsConversation req.messages (BedrockProvider.request req).kept := by
  intro h
  have hlength := (h twoPrompts false).1.system.sum_length_le
  revert hlength
  decide

end Barqium.Native.Ai
