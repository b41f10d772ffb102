import Hostlink.Text.Component
import Hostlink.Text.Base64
import Hostlink.Text.Quoted
import Hostlink.Json.Format
import Hostlink.Url
import Hostlink.Args
import Hostlink.Config
import Hostlink.HostError
import Hostlink.Request
import Hostlink.Rejection
import Hostlink.Reply
import Hostlink.Push
import Hostlink.Records
import Hostlink.EventLog
import Hostlink.Registry.Session
import Hostlink.Handlers.Session
import Hostlink.Router.Session
import Hostlink.Document
import Hostlink.Preferences
import Hostlink.Bridge.Session
import Hostlink.Client
import Hostlink.CommandLine
import Hostlink.Main
import Hostlink.Proofs.Bridge.RoundTrip
import Hostlink.Proofs.Registry.Run
import Hostlink.Proofs.Text.Order
import Hostlink.Proofs.Request.Resource
import Hostlink.Proofs.Request.Layouts
import Hostlink.Proofs.Bridge.Exchange
import Hostlink.Proofs.Action
import Hostlink.Proofs.RouteTable
import Hostlink.Proofs.Preferences.Checks
import Hostlink.Proofs.Preferences.Arguments
import Hostlink.Proofs.Preferences.Portable
import Hostlink.Proofs.Preferences.Operations
import Hostlink.Proofs.Client.Strategies
import Hostlink.Proofs.Bridge.Acknowledgement
import Hostlink.Proofs.Bridge.Isolation
import Hostlink.Proofs.Json.Shape
import Hostlink.Proofs.Bridge.Failure
import Hostlink.Proofs.Router.FanOut
import Hostlink.Proofs.Router.Timing
import Hostlink.Proofs.Bridge.Intake
import Hostlink.Proofs.Bridge.Timeouts
import Hostlink.Proofs.HostError.Returned
import Hostlink.Proofs.Request.Agreement
import Hostlink.Proofs.Request.Names
import Hostlink.Proofs.Request.Link
import Hostlink.Proofs.Bridge.Refusal
import Hostlink.Proofs.Handlers.Fates
import Hostlink.Proofs.Registry.Guards
import Hostlink.Proofs.Registry.Timers
import Hostlink.Proofs.Router.Pushes
import Hostlink.Proofs.Preferences.Requests
import Hostlink.Proofs.Preferences.Shortcuts
import Hostlink.Proofs.Preferences.Extensions
import Hostlink.Proofs.Records
import Hostlink.Proofs.Document.Surgery
import Hostlink.Proofs.Registry.Log
import Hostlink.Proofs.RouteTable.Paths
import Hostlink.Proofs.Request.NullHost
import Hostlink.Proofs.Reply.Preview
import Hostlink.Proofs.Bridge.World.Once
