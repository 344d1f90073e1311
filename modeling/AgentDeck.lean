import AgentDeck.Agent.Prompt
import AgentDeck.Agent.Tool
import AgentDeck.Binary64.Basic
import AgentDeck.Binary64.Shortest
import AgentDeck.Cache.Basic
import AgentDeck.Cli.Args
import AgentDeck.Cli.Commands
import AgentDeck.Cli.Similar
import AgentDeck.Config
import AgentDeck.Engine.Animation
import AgentDeck.Engine.Basic
import AgentDeck.Engine.Deck
import AgentDeck.Engine.Fetch
import AgentDeck.Engine.Lifecycle
import AgentDeck.Engine.Reload
import AgentDeck.Engine.Run
import AgentDeck.Engine.Tick
import AgentDeck.Engine.View
import AgentDeck.Error
import AgentDeck.Forge.Cli
import AgentDeck.Forge.Git
import AgentDeck.Forge.Review
import AgentDeck.Fs.Path
import AgentDeck.Fs.Tree
import AgentDeck.Group.Tree
import AgentDeck.Hook.Command
import AgentDeck.Hook.Event
import AgentDeck.Hook.Install
import AgentDeck.Hook.Script
import AgentDeck.Json.Check
import AgentDeck.Json.Numeral
import AgentDeck.Json.Print
import AgentDeck.Json.Read
import AgentDeck.Json.Value
import AgentDeck.Logs
import AgentDeck.Main
import AgentDeck.Mux.Basic
import AgentDeck.Mux.Tmux
import AgentDeck.Registry
import AgentDeck.Render
import AgentDeck.Session.Basic
import AgentDeck.Session.Status
import AgentDeck.Task.Basic
import AgentDeck.Text.Ansi
import AgentDeck.Text.Blank
import AgentDeck.Text.Case
import AgentDeck.Text.Debug
import AgentDeck.Text.EmojiTable
import AgentDeck.Text.JoiningTable
import AgentDeck.Text.Lines
import AgentDeck.Text.PrintTable
import AgentDeck.Text.Quote
import AgentDeck.Text.Ranges
import AgentDeck.Text.Search
import AgentDeck.Text.Utf8
import AgentDeck.Text.Width
import AgentDeck.Text.WidthTable
import AgentDeck.Time.Stamp
import AgentDeck.Toml.Read
import AgentDeck.Toml.Value
import AgentDeck.Watch.Reports
import AgentDeck.Watch.Store
import AgentDeck.World
import AgentDeck.Proofs.Engine.Quiet
import AgentDeck.Proofs.Engine.Bookkeeping
import AgentDeck.Proofs.Deck.Sound
import AgentDeck.Proofs.Deck.Deletion
import AgentDeck.Proofs.Group.Members
import AgentDeck.Engine.Fetches
import AgentDeck.Proofs.Engine.InFlight
import AgentDeck.Proofs.Engine.Screen
import AgentDeck.Proofs.Engine.Layout
import AgentDeck.Proofs.Engine.Selection
import AgentDeck.Engine.Shared
import AgentDeck.Proofs.Deck.Foreign
import AgentDeck.Proofs.Cache.Flat
import AgentDeck.Proofs.Engine.Protocol
import AgentDeck.Proofs.Fs.Names
import AgentDeck.Proofs.Fs.Frame
import AgentDeck.Proofs.Fs.Folder
import AgentDeck.Proofs.World.Run
import AgentDeck.Proofs.Registry.Backups
import AgentDeck.Proofs.Json.Cursor
import AgentDeck.Proofs.Json.Document
import AgentDeck.Proofs.Time.Calendar
import AgentDeck.Proofs.Time.Text
import AgentDeck.Proofs.Text.Fit
import AgentDeck.Proofs.Engine.Words
import AgentDeck.Proofs.Group.Walk
import AgentDeck.Proofs.Engine.Install
import AgentDeck.Proofs.Deck.Added
import AgentDeck.Proofs.Engine.Canonical
import AgentDeck.Proofs.Registry.RoundTrip
import AgentDeck.Proofs.Engine.Results
import AgentDeck.Proofs.Hook.Shell
import AgentDeck.Proofs.Registry.Targeted
import AgentDeck.Proofs.Binary64.Rounding
import AgentDeck.Proofs.Json.Numerals
import AgentDeck.Proofs.Json.Doubles
import AgentDeck.Proofs.Json.Free
import AgentDeck.Proofs.Text.Escapes
import AgentDeck.Proofs.Cli.Table
import AgentDeck.Proofs.Logs.Upkeep
import AgentDeck.Proofs.Engine.Animated
import AgentDeck.Proofs.Json.Made
import AgentDeck.Proofs.Hook.Settings
import AgentDeck.Proofs.Hook.Install
import AgentDeck.Proofs.Group.Creation
import AgentDeck.Proofs.Deck.Quiescence
import AgentDeck.Proofs.Engine.Owed
import AgentDeck.Proofs.Engine.Orphans
import AgentDeck.Proofs.Engine.Reloaded
import AgentDeck.Proofs.Deck.Convergence
