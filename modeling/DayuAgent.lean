import DayuAgent.Memory.Transcript
import DayuAgent.Memory.Admission
import DayuAgent.Memory.Story
import DayuAgent.Memory.Noninterference
import DayuAgent.Memory.Versions
import DayuAgent.Agents.StreamDelivery
import DayuAgent.Agents.Reconnect
import DayuAgent.Agents.Executors
import DayuAgent.Agents.Turns
import DayuAgent.Agents.Drain
import DayuAgent.Agents.Waiters
import DayuAgent.Agents.Endings
import DayuAgent.Agents.Outcomes
import DayuAgent.Agents.ToolPath
import DayuAgent.Agents.ToolGrammar
import DayuAgent.Agents.RetryLoop
import DayuAgent.Agents.RunMetrics
import DayuAgent.Agents.Guardrails
import DayuAgent.Agents.RequestHash
import DayuAgent.Api.EventSource
import DayuAgent.Api.SessionDetail
import DayuAgent.Database.Arbitration
import DayuAgent.Database.Completion
import DayuAgent.Database.SessionRows
import DayuAgent.Database.Migration
import DayuAgent.Database.Transcripts
import DayuAgent.Database.Lifecycle
import DayuAgent.Database.Retention
import DayuAgent.Database.History
import DayuAgent.Database.StreamLogs
import DayuAgent.Database.Simulation
import DayuAgent.Database.Attempts
import DayuAgent.Agents.Dialogue
import DayuAgent.Agents.Keyed
