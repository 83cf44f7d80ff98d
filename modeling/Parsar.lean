import Parsar.Inflight.Stranded
import Parsar.Inflight.Checkpoint
import Parsar.Inflight.TerminalText
import Parsar.Inflight.Prompts
import Parsar.Inflight.OneCard
import Parsar.Gateway.Routing
import Parsar.Gateway.Teardown
import Parsar.Gateway.Streams
import Parsar.WorkspaceWrite.Transfer
import Parsar.WorkspaceExport.Router
import Parsar.Dispatch.StatusStream
import Parsar.Dispatch.Exclusive
import Parsar.Dispatch.OutputDiscipline
import Parsar.Dispatch.Shutdown
import Parsar.Turns.Idempotence
import Parsar.Turns.Capture
import Parsar.Items.Text
import Parsar.Items.Live
import Parsar.Gateway.Ownership
import Parsar.Inbound.AtMostOnce
import Parsar.Inbound.Resume
import Parsar.Resolution.Redaction
import Parsar.Resolution.Outcomes
import Parsar.Scheduler.Failures
import Parsar.Scheduler.Once
import Parsar.Scheduler.Progress
import Parsar.History.Isolation
import Parsar.Execution.Worker
import Parsar.Execution.Connectivity
import Parsar.Gateway.PrivateReplies
import Parsar.Channel.History
import Parsar.Channel.TextCodec
import Parsar.ClaudeCode.Parser
import Parsar.Runstream.Broker
import Parsar.ClaudeCode.Ask
import Parsar.Codex.ProcessOutput
import Parsar.Audit.Ingester
import Parsar.AgentsApi.EnvironmentFiles
