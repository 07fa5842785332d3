import RpcWire.Main
import RpcWire.Proofs.Acceptance
import RpcWire.Proofs.BodyLengths
import RpcWire.Proofs.Buffers
import RpcWire.Proofs.Dump
import RpcWire.Proofs.Elements
import RpcWire.Proofs.Equality
import RpcWire.Proofs.Extents
import RpcWire.Proofs.Fields
import RpcWire.Proofs.Legibility
import RpcWire.Proofs.Lines
import RpcWire.Proofs.Operations
import RpcWire.Proofs.Policies
import RpcWire.Proofs.Programs
import RpcWire.Proofs.RoundTrip
import RpcWire.Proofs.Schema
import RpcWire.Proofs.Sizes
import RpcWire.Proofs.Tails
import RpcWire.Proofs.Verdicts
import RpcWire.ReadScript
import RpcWire.Reading.Run
import RpcWire.WriteScript
import RpcWire.Writing.Run
import RpcWire.Proofs.Places
import RpcWire.Proofs.Tokens
import RpcWire.Proofs.Limits
import RpcWire.Proofs.Paths
