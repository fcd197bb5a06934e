import AccessoryController.CompanionProtocol.TransferIntegrity
import AccessoryController.CompanionProtocol.TransferLaw
import AccessoryController.CompanionProtocol.LiveFairness
import AccessoryController.CompanionProtocol.LiveMemory
import AccessoryController.Mazda.SelectivePublication
import AccessoryController.ProfileRuntime.DeliveryOrder
import AccessoryController.VehicleProfiles.ComposeLaw
import AccessoryController.SignalNotification.NoticeFlags
import AccessoryController.Replay.SynchronousSteps
import AccessoryController.LocalArgbActions.TransientLaw
import AccessoryController.ProfileRuntime.DispatchLaw
import AccessoryController.CompanionBle.PairingLaw
import AccessoryController.Mazda.FrameIndependence
import AccessoryController.CompanionProtocol.ConfigStatusLaw
import AccessoryController.LocalArgb.ZoneLaw
import AccessoryController.LocalArgb.LayerLaw
import AccessoryController.ControllerConfig.Persisted.NumberTokenLaw
import AccessoryController.ActionEngine.EventTriggers
import AccessoryController.LocalArgb.StripTail
import AccessoryController.ActionEngine.Hysteresis
import AccessoryController.CompanionProtocol.LivePacketLaw
import AccessoryController.LocalArgbActions.LevelSnapshot
import AccessoryController.Replay.CheckedFrames
import AccessoryController.Gvret.CaptureLaw
import AccessoryController.CompanionProtocol.LiveSignalStream
import AccessoryController.Mazda.LightingDeadline
import AccessoryController.ControllerConfig.Persisted.ExactValidation
import AccessoryController.LocalArgb.ProgressWatchdog
import AccessoryController.VehicleProfiles.DbcLexerLaw
import AccessoryController.Replay.GatedRun
import AccessoryController.CompanionProtocol.WireText
import AccessoryController.CompanionProtocol.CrcLaw
import AccessoryController.Replay.ControlLaw
import AccessoryController.ProfileRuntime.ServiceLaw
import AccessoryController.Replay.ShutdownLaw
import AccessoryController.CompanionConfig.SavedDurable
import AccessoryController.VehicleProfiles.GeneratedRanges
