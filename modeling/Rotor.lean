import Rotor.Single
import Rotor.Wire.Pulse
import Rotor.Wire.Reception
import Rotor.Command.Queue
import Rotor.Settings.Record
import Rotor.Signal.Biquad
import Rotor.Signal.Lowpass
import Rotor.Mailbox
import Rotor.Hardware
import Rotor.Link.Run
import Rotor.Loop
import Rotor.Bench
import Rotor.Board.Controller
import Rotor.Proofs.Link.Effects
import Rotor.Proofs.Link.Wiring
import Rotor.Proofs.Command.Release
import Rotor.Proofs.Command.Delivery
import Rotor.Proofs.Command.Drain
import Rotor.Proofs.Link.Connected
import Rotor.Proofs.Channels
import Rotor.Proofs.Link.Staging
import Rotor.Proofs.Link.Transmission
import Rotor.Proofs.Link.Replies
import Rotor.Proofs.Link.Provenance
import Rotor.Proofs.Link.Exchange
import Rotor.Proofs.Link.Agreement
import Rotor.Proofs.Link.Requests
import Rotor.Proofs.Board.Listening
import Rotor.Proofs.Notch.Order
import Rotor.Proofs.Notch.Runs
import Rotor.Proofs.Notch.Tuning
import Rotor.Proofs.Notch.Sweep
import Rotor.Proofs.Single.Rounding
import Rotor.Proofs.Single.Arithmetic
import Rotor.Proofs.Single.Bounds
import Rotor.Proofs.Notch.Placement
import Rotor.Proofs.Notch.Ranges
import Rotor.Proofs.Notch.Band
import Rotor.Proofs.Notch.Coherence
import Rotor.Proofs.Signal.Wave
import Rotor.Proofs.Notch.Stability
import Rotor.Proofs.Wire.Decoding
import Rotor.Proofs.Settings.RoundTrip
import Rotor.Proofs.Settings.Acceptance
import Rotor.Proofs.Link.Turns
import Rotor.Proofs.Link.Mirror
import Rotor.Proofs.Link.Ledger
import Rotor.Proofs.Link.Balance
import Rotor.Proofs.Link.Accounting
import Rotor.Proofs.Mailbox.Handover
import Rotor.Proofs.Link.Freshness
import Rotor.Proofs.Board.Completions
import Rotor.Proofs.Board.Discipline
import Rotor.Proofs.Board.Streams
import Rotor.Proofs.Link.Sending
import Rotor.Proofs.Link.Losses
import Rotor.Proofs.Loop.Losses
import Rotor.Proofs.Link.Echo
import Rotor.Proofs.Notch.Rebuilds
import Rotor.Proofs.Notch.Isolation
import Rotor.Proofs.Link.Naming
import Rotor.Proofs.Loop.Silence
import Rotor.Proofs.Link.Isolation
import Rotor.Proofs.Link.Tables
import Rotor.Proofs.Notch.Settling
import Rotor.Proofs.Notch.Places
import Rotor.Proofs.Settings.Damage
import Rotor.Proofs.Link.Groups
import Rotor.Proofs.Link.Starts
import Rotor.Proofs.Link.Bursts
import Rotor.Proofs.Wire.Disturbance
import Rotor.Proofs.Wire.Loading
