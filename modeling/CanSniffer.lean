import CanSniffer.Lib.Transition
import CanSniffer.Lib.Lwrb
import CanSniffer.Lib.Bytes
import CanSniffer.Lib.BlockLog
import CanSniffer.Lib.Mailbox
import CanSniffer.Lib.Epoch
import CanSniffer.Lib.Serial
import CanSniffer.Lib.Extents
import CanSniffer.Lib.Bits
import CanSniffer.Lib.Search
import CanSniffer.Lib.Crc
import CanSniffer.Lib.RingBuffer
import CanSniffer.Lib.LastWindow
import CanSniffer.Lib.Recent
import CanSniffer.Lib.Cells
import CanSniffer.Lib.Mask
import CanSniffer.Lib.Sequential
import CanSniffer.Lib.Decimal
import CanSniffer.Lib.Json
import CanSniffer.Lib.JsonLaws
import CanSniffer.Drivers.CommTypes
import CanSniffer.Drivers.Fdcan
import CanSniffer.Drivers.CanAbs
import CanSniffer.Drivers.CanAbsLaws
import CanSniffer.Drivers.ExactTimestamp
import CanSniffer.Drivers.CanAbsDrain
import CanSniffer.Drivers.TimestampHook
import CanSniffer.Drivers.TimestampHookLaws
import CanSniffer.Drivers.Spi
import CanSniffer.Drivers.SpiLaws
import CanSniffer.Drivers.SpiAbs
import CanSniffer.Drivers.SpiAbsLaws
import CanSniffer.Drivers.FdcanIoctl
import CanSniffer.Drivers.FdcanIoctlLaws
import CanSniffer.Drivers.FdcanUtils
import CanSniffer.Drivers.FdcanUtilsLaws
import CanSniffer.Drivers.Timer
import CanSniffer.Drivers.TimerLaws
import CanSniffer.Drivers.PollByte
import CanSniffer.Drivers.SpiPrescaler
import CanSniffer.Drivers.StaticReplay
import CanSniffer.Drivers.StaticReplayLaws
import CanSniffer.Drivers.Flash
import CanSniffer.Drivers.FlashLaws
import CanSniffer.Drivers.Buffers
import CanSniffer.Drivers.BuffersLaws
import CanSniffer.Ports.FdcanMsgPort
import CanSniffer.Ports.FdcanMsgPortLaws
import CanSniffer.Ports.FdcanTrace
import CanSniffer.Ports.FdcanTraceLaws
import CanSniffer.Logging.CanLogEntry
import CanSniffer.Logging.FillEntry
import CanSniffer.Logging.CanLogBuffer
import CanSniffer.Logging.CanLogBufferLaws
import CanSniffer.Logging.CanLogSession
import CanSniffer.Logging.UsedSlots
import CanSniffer.Logging.FrameCounts
import CanSniffer.Logging.RuntimeChecks
import CanSniffer.Logging.CanLogManager
import CanSniffer.Logging.CanLogManagerLaws
import CanSniffer.Logging.TracerRuns
import CanSniffer.Logging.FrameLedger
import CanSniffer.Logging.PortTraffic
import CanSniffer.Logging.TracerStop
import CanSniffer.Logging.FramesLost
import CanSniffer.Logging.SequenceChecker
import CanSniffer.Logging.SequenceCount
import CanSniffer.Logging.ErrorRecorder
import CanSniffer.Logging.ErrorRecorderLaws
import CanSniffer.Storage.FatFs
import CanSniffer.Storage.FileHandler
import CanSniffer.Storage.FileHandlerLaws
import CanSniffer.Storage.JsonValue
import CanSniffer.Storage.Overwrite
import CanSniffer.Logging.SdBridge
import CanSniffer.Logging.SdBridgeLaws
import CanSniffer.Logging.BlockCount
import CanSniffer.Logging.LogFiles
import CanSniffer.Logging.LogFilesLaws
import CanSniffer.Logging.Prealloc
import CanSniffer.Logging.PreallocLaws
import CanSniffer.Logging.MetaData
import CanSniffer.Logging.MetaDataLaws
import CanSniffer.Iap.IapWriter
import CanSniffer.Iap.IapWriterLaws
import CanSniffer.Iap.VerifySteps
import CanSniffer.Iap.FlashAdapter
import CanSniffer.Iap.UpdateIngest
import CanSniffer.Iap.UpdateIngestLaws
import CanSniffer.Iap.Upload
import CanSniffer.Iap.UploadLaws
import CanSniffer.Iap.Verify
import CanSniffer.Iap.VerifyLaws
import CanSniffer.Iap.SharedAdapter
import CanSniffer.Web.ParseCanLog
import CanSniffer.Web.ParseCanLogLaws
import CanSniffer.Web.LogListing
import CanSniffer.Web.LogListingLaws
import CanSniffer.Web.FramePath
import CanSniffer.Web.Timeline
import CanSniffer.Web.HttpdPost
import CanSniffer.Web.HttpdPostLaws
import CanSniffer.Web.PostIsolation
import CanSniffer.Web.FormParts
import CanSniffer.Web.FormBody
import CanSniffer.Web.FsCustom
import CanSniffer.Web.FsCustomLaws
import CanSniffer.App.Core0Task0
import CanSniffer.App.Core0Task0Laws
import CanSniffer.Boot.FwUpdateHandoff
import CanSniffer.Boot.FwUpdateHandoffLaws
import CanSniffer.Boot.FlashArea
import CanSniffer.Boot.FlashAreaLaws
import CanSniffer.Config.SettingsHandler
import CanSniffer.Config.SettingsHandlerLaws
import CanSniffer.Config.IpScan
import CanSniffer.Config.IpScanLaws
import CanSniffer.Config.ParseConfigLaws
import CanSniffer.Config.ConfigManager
import CanSniffer.Config.ConfigManagerLaws
import CanSniffer.Config.RoundTrip
import CanSniffer.Sd.SdLaws
import CanSniffer.Sd.InitializeLaws
import CanSniffer.Sd.Registers
import CanSniffer.Sd.RegistersLaws
import CanSniffer.Sd.Erase
import CanSniffer.Sd.EraseLaws
import CanSniffer.Sd.Crc7Laws
import CanSniffer.Web.TraceConserved
import CanSniffer.Iap.StoredImage
import CanSniffer.Web.UploadSession
import CanSniffer.Web.UploadSessionLaws
import CanSniffer.App.FwUpdate
import CanSniffer.App.FwUpdateLaws
import CanSniffer.Lib.JsonCompact
import CanSniffer.App.Formatting
import CanSniffer.App.FormattingLaws
import CanSniffer.Sd.Read
import CanSniffer.Sd.ReadLaws
import CanSniffer.Sd.BlockDevice
import CanSniffer.Logging.BootEpochs
import CanSniffer.Web.JsonPages
import CanSniffer.Web.ErrorsPage
import CanSniffer.Web.DebugPage
import CanSniffer.App.UpdateStatus
import CanSniffer.Drivers.FdcanHealth
import CanSniffer.Drivers.FdcanHealthLaws
