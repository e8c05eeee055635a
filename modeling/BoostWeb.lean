import BoostWeb.Transition.Run
import BoostWeb.Transition.Fifo
import BoostWeb.Transition.Pipeline
import BoostWeb.Transition.Family
import BoostWeb.Path.Components
import BoostWeb.Basic
import BoostWeb.Http.Utility
import BoostWeb.Http.HandleRequest
import BoostWeb.Http.Target
import BoostWeb.Http.Session
import BoostWeb.Http.Refinement
import BoostWeb.Http.Pipelining
import BoostWeb.Http.Events
import BoostWeb.Http.Teardown
import BoostWeb.Http.Shutdown
import BoostWeb.Http.Framing
import BoostWeb.Manager.Impl
import BoostWeb.Manager.Selection
import BoostWeb.Manager.WebManager
import BoostWeb.Websocket.Session
import BoostWeb.Websocket.Lifetime
import BoostWeb.Websocket.SendQueue
import BoostWeb.Websocket.RecvBuffer
import BoostWeb.Websocket.RecvQueue
import BoostWeb.Websocket.Closing
import BoostWeb.Websocket.SendProgress
import BoostWeb.Client.Connector
import BoostWeb.Client.Answers
import BoostWeb.Client.Process
import BoostWeb.Client.Deadline
import BoostWeb.Server.Connection
import BoostWeb.Server.Stream
import BoostWeb.Http.MimeType
import BoostWeb.Deadline.Stream
import BoostWeb.Http.Deadline
import BoostWeb.Websocket.Service
import BoostWeb.Websocket.Responder
import BoostWeb.Websocket.Link
import BoostWeb.Echo.Service
import BoostWeb.Test.Service
import BoostWeb.Test.Exchange
import BoostWeb.Search.Substring
import BoostWeb.Test.Multipart
import BoostWeb.Test.Requests
import BoostWeb.Http.Handover
import BoostWeb.Server.Listener
import BoostWeb.Server.Process
import BoostWeb.Manager.Lifecycle
import BoostWeb.Test.Client
