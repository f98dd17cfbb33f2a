import PubSub.General.Glob
import PubSub.General.Stream
import PubSub.Common.Protocol
import PubSub.Common.Transfer
import PubSub.Common.Parse
import PubSub.Subscriber.Client
import PubSub.General.Heap
import PubSub.General.Runs
import PubSub.General.Maps
import PubSub.Server.Matching
import PubSub.Server.State
import PubSub.Server.Handlers
import PubSub.Server.Loop
import PubSub.Server.Sweep
import PubSub.Server.Outcomes
import PubSub.Properties.Matching
import PubSub.Properties.Subtrees
import PubSub.Properties.Bodies
import PubSub.Properties.Decoder
import PubSub.Properties.Framing
import PubSub.Properties.Shutdown
import PubSub.Properties.Segmentation
import PubSub.Properties.Requests
import PubSub.Properties.FanOut
import PubSub.Properties.Tables
import PubSub.Properties.References
import PubSub.Properties.Lifetimes
import PubSub.Properties.Subscriptions
import PubSub.Properties.Delivery
import PubSub.Properties.Lines
import PubSub.Properties.ShortDatagrams
import PubSub.Properties.Polls
import PubSub.Properties.Descriptors
import PubSub.Properties.Sweeps
import PubSub.Properties.Isolation
import PubSub.Properties.Sessions
import PubSub.Properties.Rounds
import PubSub.Properties.Transfers
import PubSub.Properties.Channels
import PubSub.General.Broker
import PubSub.General.Refinement
import PubSub.Properties.Accounts
import PubSub.Properties.Coverage
import PubSub.Properties.Service
import PubSub.Network.System
import PubSub.Properties.Packets
import PubSub.Properties.Networks
import PubSub.Properties.Peers
import PubSub.Properties.Reception
import PubSub.Properties.EndToEnd
import PubSub.Properties.MainLoop
import PubSub.Properties.Exit
import PubSub.Properties.Farewell
import PubSub.Common.Reals
import PubSub.Properties.Reals
import PubSub.Common.Console
import PubSub.General.Words
import PubSub.Properties.Console
import PubSub.Properties.Arguments
import PubSub.Properties.Commands
import PubSub.Properties.Screen
