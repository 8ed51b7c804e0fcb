import AgentSdk.Text
import AgentSdk.Value
import AgentSdk.Float
import AgentSdk.Session.Message
import AgentSdk.Session.Clones
import AgentSdk.Session.Memory
import AgentSdk.Session.World
import AgentSdk.Session.Listing
import AgentSdk.Session.Checkpoints
import AgentSdk.Session.MessageIds
import AgentSdk.Session.Path
import AgentSdk.Session.Composite
import AgentSdk.Session.Routing
import AgentSdk.Agent.Context
import AgentSdk.Event
import AgentSdk.Agent.Run
import AgentSdk.Agent.RunShape
import AgentSdk.Anthropic.Sse
import AgentSdk.Anthropic.Convert
import AgentSdk.Anthropic.Stream
import AgentSdk.Tool.TodoWrite
import AgentSdk.Tool.TodoWriteRuns
import AgentSdk.Tool.Validator
import AgentSdk.Tool.Registry
import AgentSdk.Tool.Fs
import AgentSdk.Tool.File
import AgentSdk.Event.Stream
import AgentSdk.Event.Bus
import AgentSdk.Agent.RunStream
import AgentSdk.Agent.Sharing
import AgentSdk.Event.Bookmark
import AgentSdk.Anthropic.Provider
import AgentSdk.Anthropic.Request
import AgentSdk.Model.Factory
import AgentSdk.Config.Hooks
import AgentSdk.Mcp.Client
