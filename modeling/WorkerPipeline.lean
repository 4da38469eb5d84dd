import WorkerPipeline.Ledger.Lemmas
import WorkerPipeline.Log
import WorkerPipeline.Main
import WorkerPipeline.Session.Command
import WorkerPipeline.Proofs.Ledger.Consistency
import WorkerPipeline.Proofs.Ledger.Newest
import WorkerPipeline.Proofs.Ledger.Unlimited
import WorkerPipeline.Proofs.Binary64.Rounding
import WorkerPipeline.Proofs.Binary64.Shortest
import WorkerPipeline.Proofs.Json.Codec
import WorkerPipeline.Proofs.Json.Legible
import WorkerPipeline.Proofs.Json.Reading
import WorkerPipeline.Proofs.Ledger.Retention
import WorkerPipeline.Proofs.Message.ExtraData
import WorkerPipeline.Proofs.Message.Reading
import WorkerPipeline.Proofs.Orchestrator.Effects
import WorkerPipeline.Proofs.Simulation.Bookkeeping
import WorkerPipeline.Proofs.Simulation.Outcome
import WorkerPipeline.Proofs.Session.Publication
import WorkerPipeline.Proofs.Session.Redelivery
import WorkerPipeline.Proofs.Session.Refusal
import WorkerPipeline.Proofs.Session.Waiting
import WorkerPipeline.Proofs.Session.Stranding
import WorkerPipeline.Proofs.Session.Ordering
import WorkerPipeline.Proofs.Session.Delivery
import WorkerPipeline.Proofs.Orchestrator.Fidelity
import WorkerPipeline.Proofs.Ledger.Highest
import WorkerPipeline.Proofs.Message.Lossless
import WorkerPipeline.Proofs.Orchestrator.Surroundings
import WorkerPipeline.Proofs.Session.Batching
import WorkerPipeline.Proofs.Session.Retry
import WorkerPipeline.Proofs.Orchestrator.Template
import WorkerPipeline.Proofs.Message.Documents
import WorkerPipeline.Proofs.Worker.Naming
import WorkerPipeline.Proofs.Simulation.Answering
import WorkerPipeline.Proofs.Orchestrator.Fetching
