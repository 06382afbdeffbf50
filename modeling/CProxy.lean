import CProxy.Conn.Completion
import CProxy.Conn.Counters
import CProxy.Conn.Relay
import CProxy.Control.Listening
import CProxy.Control.NewTunnel
import CProxy.Control.Routing
import CProxy.Deployment.Unhindered
import CProxy.Lib.CloseAfterEnd
import CProxy.Lib.ParseHostPort
import CProxy.Lib.Refusal
import CProxy.Tunnel.Batch
import CProxy.Tunnel.BufferedRequest
import CProxy.Tunnel.ClosedConns
import CProxy.Tunnel.Drains
import CProxy.Tunnel.FailedConnect
import CProxy.Tunnel.FreshProxy
import CProxy.Tunnel.Home
import CProxy.Tunnel.Notification
import CProxy.Tunnel.PublicFds
import CProxy.Tunnel.SplitRequest
