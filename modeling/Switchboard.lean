import Switchboard.Cache
import Switchboard.Emoji
import Switchboard.Entity
import Switchboard.Event
import Switchboard.Failure
import Switchboard.Json.Reader
import Switchboard.Lanes
import Switchboard.Log
import Switchboard.Main
import Switchboard.Message.Call
import Switchboard.Moment
import Switchboard.Notice
import Switchboard.Number.Binary64
import Switchboard.Number.Shortest
import Switchboard.Packet
import Switchboard.Packet.Field
import Switchboard.Proofs.Attempt
import Switchboard.Proofs.Cache
import Switchboard.Proofs.Cache.Coherent
import Switchboard.Proofs.Cache.Recency
import Switchboard.Proofs.Capture
import Switchboard.Proofs.Emoji
import Switchboard.Proofs.Json
import Switchboard.Proofs.Lanes
import Switchboard.Proofs.Lanes.Conduct
import Switchboard.Proofs.Lanes.Happening
import Switchboard.Proofs.Lanes.Order
import Switchboard.Proofs.Message
import Switchboard.Proofs.Message.Ballot
import Switchboard.Proofs.Message.Identity
import Switchboard.Proofs.Message.Listing
import Switchboard.Proofs.Notice
import Switchboard.Proofs.Notice.Failure
import Switchboard.Proofs.Notice.Reads
import Switchboard.Proofs.Packet
import Switchboard.Proofs.Pump
import Switchboard.Proofs.Pump.Course
import Switchboard.Proofs.Pump.Delivery
import Switchboard.Proofs.Pump.Effort
import Switchboard.Proofs.Pump.Harvest
import Switchboard.Proofs.Pump.Independence
import Switchboard.Proofs.Pump.Path
import Switchboard.Proofs.Pump.Source
import Switchboard.Proofs.Pump.Wakes
import Switchboard.Proofs.Registry
import Switchboard.Proofs.Registry.Attached
import Switchboard.Proofs.Registry.Roll
import Switchboard.Proofs.Scenario.Change
import Switchboard.Proofs.Scenario.Clock
import Switchboard.Proofs.Scenario.Containment
import Switchboard.Proofs.Scenario.Delivery
import Switchboard.Proofs.Scenario.Effect
import Switchboard.Proofs.Scenario.History
import Switchboard.Proofs.Scenario.Idle
import Switchboard.Proofs.Scenario.Instruction
import Switchboard.Proofs.Scenario.Isolation
import Switchboard.Proofs.Scenario.Journal
import Switchboard.Proofs.Scenario.Machine
import Switchboard.Proofs.Scenario.Quiet
import Switchboard.Proofs.Scenario.Redelivery
import Switchboard.Proofs.Scenario.Refusal
import Switchboard.Proofs.Scenario.Release
import Switchboard.Proofs.Scenario.Staleness
import Switchboard.Proofs.Scenario.Submission
import Switchboard.Proofs.Scenario.Telling
import Switchboard.Proofs.Session.Agreement
import Switchboard.Proofs.Session.Change
import Switchboard.Proofs.Session.Coherent
import Switchboard.Proofs.Session.Dated
import Switchboard.Proofs.Session.Extent
import Switchboard.Proofs.Session.Failure
import Switchboard.Proofs.Session.Fanout
import Switchboard.Proofs.Session.Filed
import Switchboard.Proofs.Session.Footprint
import Switchboard.Proofs.Session.Frame
import Switchboard.Proofs.Session.Independence
import Switchboard.Proofs.Session.Lanes
import Switchboard.Proofs.Session.Outcome
import Switchboard.Proofs.Session.Ownership
import Switchboard.Proofs.Session.Posting
import Switchboard.Proofs.Session.Redelivery
import Switchboard.Proofs.Session.Refusal
import Switchboard.Proofs.Session.Release
import Switchboard.Proofs.Session.Sight
import Switchboard.Proofs.Session.Standard
import Switchboard.Proofs.Session.Sweep
import Switchboard.Proofs.Session.Twins
import Switchboard.Proofs.Settings
import Switchboard.Proofs.Settings.Failure
import Switchboard.Proofs.Settings.Loading
import Switchboard.Proofs.Settings.Overlay
import Switchboard.Proofs.Settings.Restart
import Switchboard.Proofs.Settings.Sections
import Switchboard.Proofs.Shard
import Switchboard.Proofs.Snowflake
import Switchboard.Proofs.Snowflake.Spelling
import Switchboard.Proofs.Table
import Switchboard.Proofs.Table.Merge
import Switchboard.Proofs.Text.Blank
import Switchboard.Proofs.Text.Octets
import Switchboard.Proofs.Value
import Switchboard.Proofs.Value.Scalar
import Switchboard.Proofs.Yaml.Library
import Switchboard.Pump
import Switchboard.Registry
import Switchboard.Replay
import Switchboard.Scenario
import Switchboard.Scenario.Machine
import Switchboard.Scenario.Perform
import Switchboard.Scenario.Run
import Switchboard.Scenario.Step
import Switchboard.Session
import Switchboard.Session.Frame
import Switchboard.Session.Notice
import Switchboard.Settings
import Switchboard.Settings.File
import Switchboard.Settings.Keeper
import Switchboard.Shard
import Switchboard.Snowflake
import Switchboard.Sweep
import Switchboard.Table
import Switchboard.Text.Character
import Switchboard.Text.Octets
import Switchboard.Text.Printable
import Switchboard.Text.Quoted
import Switchboard.Value
import Switchboard.Value.Number
import Switchboard.Value.Text
import Switchboard.Yaml.Cursor
import Switchboard.Yaml.Document
import Switchboard.Yaml.Library
import Switchboard.Yaml.Node
import Switchboard.Yaml.Page
import Switchboard.Yaml.Style
import Switchboard.Yaml.Tag
import Switchboard.Yaml.Token
import Switchboard.Yaml.Token.Bare
import Switchboard.Yaml.Token.Lexer
import Switchboard.Yaml.Token.Property
import Switchboard.Yaml.Token.Quoted
