import AgentSdk.Text
import AgentSdk.Value
import Mathlib.Data.List.Forall2

/-!
# Messages to and from the Anthropic wire format

`toAnthropicMessages` turns the conversation, a list of `model.Message`,
into the request's `MessageParam`s: system messages are pulled out into
the system text, and every other message becomes one parameter whose
blocks are its text, if any, then one `tool_use` block per tool call, or a
single empty text block when it has neither. `convertResponse` reads a
response back into a `model.Message`, concatenating the text blocks and
collecting the `tool_use` blocks as tool calls.

The two are inverse on a message (`convertResponse_toAnthropicMessages`):
decoding the parameter a message was encoded to gives the message back,
with its role normalized. A slice of tool calls is a list here, so a nil
and an empty `ToolCalls`, which `convertResponse` does not tell apart
either, are the same value.
-/

open GoString

namespace Model

/-- **`model.ToolCall`**: a tool invocation; `Arguments` is a
`map[string]any`, `none` for a nil map. -/
structure ToolCall where
  ID : String
  Name : String
  Arguments : Option ValueMap
  deriving Repr

/-- **`model.Message`**. -/
structure Message where
  Role : String
  Content : String
  ToolCalls : List ToolCall
  deriving Repr

end Model

namespace Anthropic

/-- **`ContentBlock`**, with the fields the converters read and write; the
`tool_result` field `ToolUseID` is neither. -/
structure ContentBlock where
  type : String
  Text : String
  ID : String
  Name : String
  Input : Option ValueMap
  deriving Repr

/-- **`MessageParam`**. -/
structure MessageParam where
  Role : String
  Content : List ContentBlock
  deriving Repr

/-- **`MessageResponse`**, with the fields `convertResponse` reads. -/
structure MessageResponse where
  Role : String
  Content : List ContentBlock
  deriving Repr

/-! ## Decoding a response -/

/-- One pass of the loop of `convertResponse`: a text block is written to
the text, a `tool_use` block appended as a tool call, any other skipped. -/
def convertBlock (acc : String × List Model.ToolCall) (block : ContentBlock) :
    String × List Model.ToolCall :=
  if block.type = "text" then (acc.1 ++ block.Text, acc.2)
  else if block.type = "tool_use" then
    (acc.1, acc.2 ++ [{ ID := block.ID, Name := block.Name, Arguments := block.Input }])
  else acc

/-- **`convertResponse`**: the role, `assistant` when empty, with the text
and the tool calls of the blocks. -/
def convertResponse (resp : MessageResponse) : Model.Message :=
  let (text, toolCalls) := resp.Content.foldl convertBlock ("", [])
  { Role := if resp.Role = "" then "assistant" else resp.Role
    Content := text
    ToolCalls := toolCalls }

/-! ## Encoding a request -/

/-- **`normalizeRole`**. -/
def normalizeRole (role : String) : String :=
  if role = "assistant" ∨ role = "model" then "assistant" else "user"

/-- A text block. -/
def textBlock (text : String) : ContentBlock :=
  { type := "text", Text := text, ID := "", Name := "", Input := none }

/-- The `tool_use` block of a tool call. -/
def toolUseBlock (call : Model.ToolCall) : ContentBlock :=
  { type := "tool_use", Text := "", ID := call.ID, Name := call.Name, Input := call.Arguments }

/-- The blocks of a non-system message: its text when non-empty, then its
tool calls; one empty text block when that leaves none. -/
def messageBlocks (msg : Model.Message) : List ContentBlock :=
  let blocks := (if msg.Content ≠ "" then [textBlock msg.Content] else []) ++
    msg.ToolCalls.map toolUseBlock
  if blocks.isEmpty then [textBlock ""] else blocks

/-- One pass of the loop of `toAnthropicMessages` over the messages, with
the system parts and the parameters so far. -/
def toAnthropicStep (acc : List String × List MessageParam) (msg : Model.Message) :
    List String × List MessageParam :=
  let role := toLower (trimSpace msg.Role)
  if role = "system" then
    (if msg.Content ≠ "" then acc.1 ++ [msg.Content] else acc.1, acc.2)
  else (acc.1, acc.2 ++ [{ Role := normalizeRole role, Content := messageBlocks msg }])

/-- **`toAnthropicMessages`**: the system text, the system parts joined by
a blank line, and the parameters, one empty user message when no message
made one. -/
def toAnthropicMessages (messages : List Model.Message) : String × List MessageParam :=
  let (systemParts, out) := messages.foldl toAnthropicStep ([], [])
  let out := if out.isEmpty then [{ Role := "user", Content := [textBlock ""] }] else out
  ("\n\n".intercalate systemParts, out)

/-! ## What the encoder computes -/

/-- The parameter a non-system message is encoded to. -/
def messageParam (msg : Model.Message) : MessageParam :=
  { Role := normalizeRole (toLower (trimSpace msg.Role)), Content := messageBlocks msg }

/-- The system parts of a conversation: the non-empty contents of its
system messages. -/
def systemParts (messages : List Model.Message) : List String :=
  ((messages.filter fun m => toLower (trimSpace m.Role) = "system").map (·.Content)).filter
    (· ≠ "")

/-- The parameters of a conversation: one per non-system message, in order. -/
def params (messages : List Model.Message) : List MessageParam :=
  (messages.filter fun m => toLower (trimSpace m.Role) ≠ "system").map messageParam

theorem toAnthropicStep_eq (acc : List String × List MessageParam) (msg : Model.Message) :
    toAnthropicStep acc msg = (acc.1 ++ systemParts [msg], acc.2 ++ params [msg]) := by
  by_cases hr : toLower (trimSpace msg.Role) = "system"
  · by_cases hc : msg.Content = ""
    · simp [toAnthropicStep, systemParts, params, hr, hc]
    · simp [toAnthropicStep, systemParts, params, hr, hc]
  · simp [toAnthropicStep, systemParts, params, messageParam, hr]

/-- **The loop of `toAnthropicMessages`**: it appends the system parts and
the parameters of the messages it reads. -/
theorem foldl_toAnthropicStep :
    ∀ (messages : List Model.Message) (acc : List String × List MessageParam),
      messages.foldl toAnthropicStep acc =
        (acc.1 ++ systemParts messages, acc.2 ++ params messages)
  | [], _ => by simp [systemParts, params]
  | msg :: messages, acc => by
    have hsplit : msg :: messages = [msg] ++ messages := rfl
    rw [List.foldl_cons, foldl_toAnthropicStep messages, toAnthropicStep_eq, hsplit,
      systemParts, systemParts, systemParts, params, params, params]
    simp only [List.filter_append, List.map_append, List.append_assoc]

theorem toAnthropicMessages_eq (messages : List Model.Message) :
    toAnthropicMessages messages =
      ("\n\n".intercalate (systemParts messages),
        if (params messages).isEmpty then [{ Role := "user", Content := [textBlock ""] }]
        else params messages) := by
  simp only [toAnthropicMessages, foldl_toAnthropicStep, List.nil_append]

/-! ## Decoding undoes encoding -/

theorem normalizeRole_ne_empty (role : String) : normalizeRole role ≠ "" := by
  unfold normalizeRole
  split_ifs <;> decide

@[simp] theorem convertBlock_textBlock (acc : String × List Model.ToolCall) (text : String) :
    convertBlock acc (textBlock text) = (acc.1 ++ text, acc.2) := by
  simp [convertBlock, textBlock]

@[simp] theorem convertBlock_toolUseBlock (acc : String × List Model.ToolCall)
    (call : Model.ToolCall) : convertBlock acc (toolUseBlock call) = (acc.1, acc.2 ++ [call]) := by
  simp [convertBlock, toolUseBlock]

theorem foldl_convertBlock_toolUseBlocks (calls : List Model.ToolCall) :
    ∀ acc : String × List Model.ToolCall,
      (calls.map toolUseBlock).foldl convertBlock acc = (acc.1, acc.2 ++ calls) := by
  induction calls with
  | nil => simp
  | cons call calls ih => intro acc; simp [ih]

/-- **Decoding the blocks of a message** gives back its content and its
tool calls. -/
theorem foldl_convertBlock_messageBlocks (msg : Model.Message) :
    (messageBlocks msg).foldl convertBlock ("", []) = (msg.Content, msg.ToolCalls) := by
  obtain ⟨_, content, calls⟩ := msg
  by_cases hc : content = ""
  · subst hc
    cases calls <;> simp [messageBlocks, foldl_convertBlock_toolUseBlocks]
  · simp [messageBlocks, hc, foldl_convertBlock_toolUseBlocks]

theorem convertResponse_messageParam (msg : Model.Message) :
    convertResponse { Role := (messageParam msg).Role, Content := (messageParam msg).Content } =
      { Role := normalizeRole (toLower (trimSpace msg.Role)), Content := msg.Content,
        ToolCalls := msg.ToolCalls } := by
  simp only [convertResponse, messageParam, foldl_convertBlock_messageBlocks,
    if_neg (normalizeRole_ne_empty _)]

theorem convertResponse_toAnthropicMessages (messages : List Model.Message) :
    let kept := messages.filter fun m => toLower (trimSpace m.Role) ≠ "system"
    let out := (toAnthropicMessages messages).2
    (kept = [] ∧ out = [{ Role := "user", Content := [textBlock ""] }]) ∨
      (kept ≠ [] ∧ List.Forall₂ (fun m p =>
        convertResponse { Role := p.Role, Content := p.Content } =
          { Role := normalizeRole (toLower (trimSpace m.Role)), Content := m.Content,
            ToolCalls := m.ToolCalls }) kept out) := by
  intro kept out
  have hout : out = if (kept.map messageParam).isEmpty
      then [{ Role := "user", Content := [textBlock ""] }] else kept.map messageParam := by
    simp only [out, toAnthropicMessages_eq, params]
  by_cases hk : kept = []
  · exact .inl ⟨hk, by simp [hout, hk]⟩
  · refine .inr ⟨hk, ?_⟩
    rw [hout, if_neg (by simpa using hk), List.forall₂_map_right_iff, List.forall₂_same]
    exact fun msg _ => convertResponse_messageParam msg

end Anthropic
